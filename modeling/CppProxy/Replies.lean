/-
  cpp_proxy — the acknowledgements of the process.

  `setup` answers each payload that it has handled with a head that carries the total
  of its direction so far, before it reads the next frame; `heartbeat` sends its heads
  in between.

  * `acks`: the heads that a sequence of calls is to be answered with;
  * `Process.Replying`: the heads that were begun are these, one for each call and in
    order; the last one may not be begun;
  * `replied`: it holds in every run of a process.
-/
import CppProxy.Heads

namespace CppProxy

open Runs

/-! ## The functions of the process -/

namespace Process

variable {p p' x : Process}

/-- `setup` goes on after a frame: it returns, reads the next one, or writes the total of
    a direction; a total that has changed is written. -/
structure Turns (p p' : Process) (parses : Bool) : Prop where
  heartbeat : p'.heartbeat = p.heartbeat
  received : p'.received = p.received
  begun : p'.begun = p.begun
  hasClosed : p.eof = false → p'.hasClosed = p.hasClosed
  setup : p'.setup = .done ∧ (p.eof = true ∨ parses = false) ∨ p'.setup = .readHead [] ∨
    ∃ d : Dir, p'.setup = .write (.start (passHead d.dataType (p'.counter d)))
  total : ∀ d : Dir, p'.total d = p.total d ∨
    p'.setup = .write (.start (passHead d.dataType (p'.counter d)))

theorem Turns.loop {parses : Bool} (hb : x.heartbeat = p.heartbeat) (hr : x.received = p.received)
    (hg : x.begun = p.begun) (hc : x.hasClosed = p.hasClosed) (he : x.eof = p.eof)
    (ht : ∀ d, x.total d = p.total d) : p.Turns x.setupLoop parses := by
  unfold setupLoop
  split
  · rename_i h
    refine ⟨hb, hr, hg, fun h' => ?_, .inl ⟨rfl, .inl (he ▸ h)⟩, fun d => .inl (ht d)⟩
    rw [he, h'] at h
    cases h
  · exact ⟨hb, hr, hg, fun _ => hc, .inr (.inl rfl), fun d => .inl (ht d)⟩

theorem total_call (p : Process) (type : DataType) (data : List Byte) (d : Dir) :
    (p.call type data).total d = p.total d + if type = d.dataType then data.length else 0 := by
  rw [total, call, totalLen_append, totalLen_singleton, ← total]

/-- **The `switch` of `setup`**: each payload is answered with the total of its direction. -/
theorem turns_handle (p : Process) (head : List Byte) (parses : Bool) :
    p.Turns (p.handle head parses) parses := by
  unfold handle
  dsimp only
  split
  · refine ⟨rfl, rfl, rfl, fun _ => rfl, .inr (.inr ⟨.req, rfl⟩), fun d => ?_⟩
    cases d
    · exact .inr rfl
    · left
      exact (total_call _ .fromClientToServer _ .res).trans rfl
  · split
    · rename_i hz
      refine .loop rfl rfl rfl rfl rfl fun d => ?_
      refine (total_call _ .fromServerToClient _ d).trans ?_
      rw [hz]
      cases d <;> rfl
    · refine ⟨rfl, rfl, rfl, fun _ => rfl, .inr (.inr ⟨.res, rfl⟩), fun d => ?_⟩
      cases d
      · left
        exact (total_call _ .fromServerToClient _ .req).trans rfl
      · exact .inr rfl
  · have ht : ∀ d, (p.call .fourTuple (p.buf.take (bodyLen head).toNat)).total d = p.total d := by
      intro d
      rw [total_call]
      cases d <;> rfl
    split
    · exact .loop rfl rfl rfl rfl rfl ht
    · rename_i h
      exact ⟨rfl, rfl, rfl, fun _ => rfl, .inl ⟨rfl, .inr (by simpa using h)⟩, fun d => .inl (ht d)⟩
  · exact .loop rfl rfl rfl rfl rfl fun _ => rfl

theorem headWrite_heartbeat {w : HeadWrite} (hw : p.headWrite .heartbeat = some w) :
    p.heartbeat = .write w := by
  simp only [headWrite] at hw
  split at hw
  · rename_i hpc
    rw [hpc, Option.some.inj hw]
  · cases hw

end Process

/-! ## The heads that are due -/

/-- The head that answers a call, behind the calls `before`. -/
def ackOf (before : List (DataType × List Byte)) :
    DataType × List Byte → Option ResponseHead
  | (.fromClientToServer, data) => some (passHead .fromClientToServer
      (UInt64.ofNat (totalLen .fromClientToServer before + data.length)))
  | (.fromServerToClient, data) =>
    if data = [] then none
    else some (passHead .fromServerToClient
      (UInt64.ofNat (totalLen .fromServerToClient before + data.length)))
  | _ => none

/-- The heads that answer `calls`, behind the calls `before`. -/
def acksFrom (before : List (DataType × List Byte)) : List (DataType × List Byte) → List ResponseHead
  | [] => []
  | c :: calls => (ackOf before c).toList ++ acksFrom (before ++ [c]) calls

/-- The heads that a sequence of calls is to be answered with. -/
def acks (calls : List (DataType × List Byte)) : List ResponseHead := acksFrom [] calls

theorem acksFrom_append (before calls calls' : List (DataType × List Byte)) :
    acksFrom before (calls ++ calls') =
      acksFrom before calls ++ acksFrom (before ++ calls) calls' := by
  induction calls generalizing before with
  | nil => simp [acksFrom]
  | cons c calls ih => simp [acksFrom, ih, List.append_assoc]

theorem acks_snoc (calls : List (DataType × List Byte)) (c : DataType × List Byte) :
    acks (calls ++ [c]) = acks calls ++ (ackOf calls c).toList := by
  rw [acks, acksFrom_append, List.nil_append]
  simp [acks, acksFrom]

/-! ## The heads that are begun -/

/-- The head that `setup` has not begun to send. -/
def SetupPc.unbegun : SetupPc → List (List Byte)
  | write w => if w.rest = w.frame then [w.frame] else []
  | _ => []

theorem SetupPc.length_unbegun (pc : SetupPc) : pc.unbegun.length ≤ 1 := by
  cases pc with
  | write w =>
    simp only [unbegun]
    split
    · exact le_rfl
    · exact Nat.zero_le _
  | _ => exact Nat.zero_le _

/-- The heads that were begun, without the heartbeats. -/
def Process.replies (p : Process) : List (List Byte) := p.begun.filter (· ≠ heartbeatHead.bytes)

/-- The process answers each call once, in order. -/
structure Process.Replying (p : Process) : Prop where
  room : ∀ head got, p.setup = .readBody head got → (bodyLen head).toNat ≤ p.buf.length
  sums : p.Sums
  heads : p.Heads
  whole : ∀ t w, p.headWrite t = some w → w.rest <:+ w.frame
  replied : ∃ left, p.replies ++ left = (acks p.handled).map ResponseHead.bytes ∧
    (left = p.setup.unbegun ∨ p.setup = .done ∧ p.hasClosed = true ∧ left.length ≤ 1)

namespace Process

variable {p p' x : Process}

theorem unbegun_start (head : ResponseHead) :
    (SetupPc.write (.start head)).unbegun = [head.bytes] := if_pos rfl

theorem unbegun_setupLoop (p : Process) : p.setupLoop.setup.unbegun = [] := by
  unfold setupLoop
  split <;> rfl

/-- **The `switch` of `setup`**: a call is answered with the total of its direction. -/
theorem acks_handle {head : List Byte} (hroom : (bodyLen head).toNat ≤ p.buf.length) (hs : p.Sums)
    (parses : Bool) : (acks (p.handle head parses).handled).map ResponseHead.bytes =
      (acks p.handled).map ResponseHead.bytes ++ (p.handle head parses).setup.unbegun := by
  have hsums := (handle_handled p head parses).sums hroom hs
  have hlen : (p.buf.take (bodyLen head).toNat).length = (bodyLen head).toNat := by
    rw [List.length_take, min_eq_left hroom]
  have hloop : ∀ q : Process, acks q.handled = acks p.handled →
      (acks q.setupLoop.handled).map ResponseHead.bytes =
        (acks p.handled).map ResponseHead.bytes ++ q.setupLoop.setup.unbegun := by
    intro q hq
    rw [q.setupLoop_rest.1, hq, unbegun_setupLoop, List.append_nil]
  revert hsums
  unfold handle
  generalize p.buf.take (bodyLen head).toNat = data at hlen ⊢
  dsimp only
  split
  · intro hsums
    have htot : p.reqHandledTotalPkgLen + (bodyLen head).toUInt64 = UInt64.ofNat
        (totalLen .fromClientToServer (p.handled ++ [(.fromClientToServer, data)])) := hsums.1
    rw [totalLen_append, totalLen_singleton, if_pos rfl] at htot
    simp only [writeHead, call, unbegun_start, acks_snoc, List.map_append, htot]
    rfl
  · split
    · rename_i h0
      intro _
      refine hloop _ ?_
      have hnil : data = [] := List.length_eq_zero_iff.1 (hlen.trans (congrArg UInt32.toNat h0))
      simp [call, acks_snoc, ackOf, hnil]
    · rename_i h0
      intro hsums
      have htot : p.resHandledTotalPkgLen + (bodyLen head).toUInt64 = UInt64.ofNat
          (totalLen .fromServerToClient (p.handled ++ [(.fromServerToClient, data)])) := hsums.2
      rw [totalLen_append, totalLen_singleton, if_pos rfl] at htot
      have hne : data ≠ [] := by
        rintro rfl
        exact h0 (UInt32.toNat_inj.1 hlen.symm)
      simp only [writeHead, call, unbegun_start, acks_snoc, List.map_append, htot]
      rw [ackOf, if_neg hne]
      rfl
  · split
    · exact fun _ => hloop _ (by simp [call, acks_snoc, ackOf])
    · intro _
      simp [call, acks_snoc, ackOf, SetupPc.unbegun]
  · exact fun _ => hloop _ rfl

namespace Replying

/-- `setup` reads, and has begun all heads that are due. -/
theorem all (h : p.Replying) (hu : p.setup.unbegun = []) (hd : p.setup ≠ .done) :
    p.replies = (acks p.handled).map ResponseHead.bytes := by
  obtain ⟨left, hl, rfl | ⟨hdone, -⟩⟩ := h.replied
  · rwa [hu, List.append_nil] at hl
  · exact absurd hdone hd

/-- `setup` has read a frame. -/
theorem turn (h : p.Replying) (hu : p.setup.unbegun = []) (hd : p.setup ≠ .done)
    (hh : x.handled = p.handled) (hb : x.begun = p.begun) (hbeat : x.heartbeat = p.heartbeat)
    (hs : x.Sums) {head : List Byte} (hroom : (bodyLen head).toNat ≤ x.buf.length)
    (parses : Bool) : (x.handle head parses).Replying := by
  have hx := x.turns_handle head parses
  have hhead := (Grows.handle (p := p) (hh ▸ List.prefix_rfl) hbeat head parses).heads h.heads
  refine ⟨fun head' got hpc => ?_, (handle_handled x head parses).sums hroom hs, hhead,
    fun t w hw => ?_, _, ?_, .inl rfl⟩
  · rcases hx.setup with ⟨hs, -⟩ | hs | ⟨d, hs⟩ <;> rw [hs] at hpc <;> cases hpc
  · cases t with
    | setup =>
      have hpc := Decoded.headWrite_setup hw
      rcases hx.setup with ⟨hs, -⟩ | hs | ⟨d, hs⟩ <;> rw [hs] at hpc <;> cases hpc
      exact List.suffix_rfl
    | heartbeat =>
      refine h.whole .heartbeat w ?_
      rw [headWrite, ← hbeat, ← hx.heartbeat]
      exact hw
  · rw [acks_handle hroom hs, hh, ← h.all hu hd, replies, replies, hx.begun, hb]

/-- `setup` has the head of a frame. -/
theorem setupHead (h : p.Replying) (hu : p.setup.unbegun = []) (hd : p.setup ≠ .done)
    (hh : x.handled = p.handled) (hb : x.begun = p.begun) (hbeat : x.heartbeat = p.heartbeat)
    (hs : x.Sums) (head : List Byte) (parses : Bool) : (x.setupHead head parses).Replying := by
  have hroom : (bodyLen head).toNat ≤ (x.growBuf (bodyLen head).toNat).buf.length := by
    simp only [growBuf, List.length_append, List.length_replicate]
    omega
  unfold Process.setupHead
  dsimp only
  split
  · refine ⟨fun head' got hpc => ?_, hs, ?_, fun t w hw => ?_, [], ?_, .inl rfl⟩
    · cases hpc
      exact hroom
    · exact ⟨fun w hw => (by cases hw), hbeat ▸ h.heads.heartbeat⟩
    · cases t with
      | setup => cases hw
      | heartbeat =>
        refine h.whole .heartbeat w ?_
        rw [headWrite, ← hbeat]
        exact hw
    · rw [List.append_nil, show (x.growBuf (bodyLen head).toNat).handled = p.handled from hh,
        ← h.all hu hd]
      show x.begun.filter _ = p.begun.filter _
      rw [hb]
  · exact h.turn (x := x.growBuf _) hu hd hh hb hbeat hs hroom parses

/-- `setup` goes on, or returns, without a call; what is not begun stays. -/
theorem setup {q : SetupPc} (h : p.Replying) (hh : p'.handled = p.handled) (hs : p'.Sums)
    (hb : p'.begun = p.begun) (hbeat : p'.heartbeat = p.heartbeat) (hq : p'.setup = q)
    (hw : ∀ w, q ≠ .write w)
    (hr : ∀ head got, q = .readBody head got → (bodyLen head).toNat ≤ p'.buf.length)
    (hu : p.setup.unbegun = [] ∧ p.setup ≠ .done ∨ q = .done ∧ p'.hasClosed = true) :
    p'.Replying := by
  have hnil : q.unbegun = [] := by
    cases q with
    | write w => exact absurd rfl (hw w)
    | _ => rfl
  refine ⟨fun head got hpc => hr head got (hq ▸ hpc), hs, ?_, fun t w hpc => ?_, ?_⟩
  · exact ⟨fun w hpc => absurd (hq ▸ hpc) (hw w), hbeat ▸ h.heads.heartbeat⟩
  · cases t with
    | setup => exact absurd (hq ▸ Decoded.headWrite_setup hpc) (hw w)
    | heartbeat =>
      refine h.whole .heartbeat w ?_
      rw [headWrite, ← hbeat]
      exact hpc
  · have hrep : p'.replies = p.replies := by rw [replies, replies, hb]
    rw [hrep, hh, hq, hnil]
    rcases hu with ⟨hu, hd⟩ | ⟨rfl, hc⟩
    · exact ⟨[], by rw [List.append_nil, h.all hu hd], .inl rfl⟩
    · obtain ⟨left, hl, hleft⟩ := h.replied
      refine ⟨left, hl, .inr ⟨rfl, hc, ?_⟩⟩
      rcases hleft with rfl | ⟨-, -, hlen⟩
      · exact p.setup.length_unbegun
      · exact hlen

/-- `heartbeat` goes on; a heartbeat is none of the replies. -/
theorem beat {q : HeartbeatPc} (h : p.Replying) (hh : p'.handled = p.handled) (hs : p'.setup = p.setup)
    (hbuf : p'.buf = p.buf) (hreq : p'.reqHandledTotalPkgLen = p.reqHandledTotalPkgLen)
    (hres : p'.resHandledTotalPkgLen = p.resHandledTotalPkgLen)
    (hc : p.hasClosed = true → p'.hasClosed = true) (hb : p'.replies = p.replies)
    (hq : p'.heartbeat = q)
    (hw : ∀ w, q = .write w → w.frame = heartbeatHead.bytes ∧ w.rest <:+ w.frame) :
    p'.Replying := by
  have hcount : p'.counter = p.counter := by
    funext d
    cases d
    · exact hreq
    · exact hres
  refine ⟨by rw [hs, hbuf]; exact h.room, ?_, ?_, fun t w hpc => ?_, ?_⟩
  · rw [Sums, hreq, hres, hh]
    exact h.sums
  · exact ⟨by rw [hs, hcount]; exact h.heads.setup, fun w hpc => (hw w (hq ▸ hpc)).1⟩
  · cases t with
    | setup =>
      refine h.whole .setup w ?_
      rw [headWrite, ← hs]
      exact hpc
    | heartbeat => exact (hw w (hq ▸ headWrite_heartbeat hpc)).2
  · rw [hb, hh, hs]
    obtain ⟨left, hl, hleft⟩ := h.replied
    exact ⟨left, hl, hleft.imp_right fun hdone => ⟨hdone.1, hc hdone.2.1, hdone.2.2⟩⟩

/-- An acknowledgement is no heartbeat. -/
theorem ack_ne_beat (d : Dir) (total : UInt64) :
    (passHead d.dataType total).bytes ≠ heartbeatHead.bytes := by
  intro heq
  have htype := congrArg (fun f => (ResponseHead.ofBytes f).type) heq
  simp only [ResponseHead.ofBytes_bytes] at htype
  change d.dataType.code = DataType.heartbeat.code at htype
  cases d
  · exact absurd htype (by decide)
  · exact absurd htype (by decide)

/-- Some of a head is sent. -/
theorem push (h : p.Replying) {t : Coroutine} {k : ℕ} {w : HeadWrite} (hw : p.headWrite t = some w)
    (h0 : 0 < k) (hk : k ≤ w.rest.length) :
    ((p.send w k).setHeadWrite { w with rest := w.rest.drop k } t).Replying := by
  have hwhole := h.whole t w hw
  have hdrop : w.rest.drop k <:+ w.frame := (List.drop_suffix k w.rest).trans hwhole
  cases t with
  | setup =>
    have hpc := Decoded.headWrite_setup hw
    obtain ⟨d, hframe⟩ := h.heads.setup w hpc
    have hne : w.rest.drop k ≠ w.frame := by
      intro heq
      have hlen := congrArg List.length heq
      have hle := hwhole.length_le
      rw [List.length_drop] at hlen
      omega
    refine ⟨fun head got hq => (by cases hq), h.sums, (Grows.push hw).heads h.heads,
      fun t' w' hw' => ?_, [], ?_, .inl (if_neg hne).symm⟩
    · cases t' with
      | setup =>
        cases hw'
        exact hdrop
      | heartbeat => exact h.whole .heartbeat w' hw'
    · obtain ⟨left, hl, rfl | ⟨hd, -⟩⟩ := h.replied
      · refine Eq.trans ?_ hl
        show ((p.begun ++ _).filter _) ++ [] = p.replies ++ _
        rw [List.append_nil, List.filter_append, hpc, SetupPc.unbegun]
        refine congrArg (p.replies ++ ·) ?_
        split
        · simp [hframe, ack_ne_beat]
        · rfl
      · rw [hpc] at hd
        cases hd
  | heartbeat =>
    have hpc := headWrite_heartbeat hw
    have hframe := h.heads.heartbeat w hpc
    refine h.beat (q := .write { w with rest := w.rest.drop k }) rfl rfl rfl rfl rfl id ?_ rfl
      fun w' hw' => ?_
    · show (p.begun ++ _).filter _ = p.begun.filter _
      rw [List.filter_append]
      split
      · simp [hframe]
      · simp
    · cases hw'
      exact ⟨hframe, hdrop⟩

/-- **The process replies** after every step. -/
theorem step (h : p.Replying) {e : ProcessEvent} (hst : p.step e = some p') : p'.Replying := by
  cases e with
  | pull bytes =>
    simp only [Process.step] at hst
    split at hst
    case h_2 => cases hst
    case h_1 got want hq =>
      split at hst <;> cases hst
      have hrefl : p.setup.unbegun = [] ∧ p.setup ≠ .done := by
        cases hpc : p.setup with
        | readHead | readBody => exact ⟨rfl, by simp⟩
        | write | done =>
          rw [hpc] at hq
          cases hq
      cases hpc : p.setup with
      | readHead got' =>
        exact h.setup (q := .readHead (got ++ bytes)) rfl h.sums rfl rfl rfl
          (by simp) (by simp) (.inl hrefl)
      | readBody head got' =>
        refine h.setup (q := .readBody head (got ++ bytes)) rfl h.sums rfl rfl rfl
          (by simp) (fun head' got'' hq' => ?_) (.inl hrefl)
        cases hq'
        exact h.room head got' hpc
      | write | done =>
        rw [hpc] at hq
        cases hq
  | readDone parses =>
    simp only [Process.step] at hst
    split at hst
    · rename_i got hpc
      split at hst <;> cases hst
      exact h.setupHead (by rw [hpc]; rfl) (by rw [hpc]; simp) rfl rfl rfl h.sums got parses
    · rename_i head got hpc
      split at hst <;> cases hst
      rename_i hlen
      refine h.turn (x := p.setBuf got) (by rw [hpc]; rfl) (by rw [hpc]; simp) rfl rfl rfl h.sums ?_
        parses
      have hroom := h.room head got hpc
      simp only [setBuf, List.length_append, List.length_drop]
      omega
    · cases hst
  | readEof garbage parses =>
    simp only [Process.step] at hst
    split at hst
    · rename_i got hpc
      split at hst <;> cases hst
      exact h.setupHead (x := { p with eof := true }) (by rw [hpc]; rfl) (by rw [hpc]; simp) rfl rfl
        rfl h.sums _ parses
    · rename_i head got hpc
      split at hst <;> cases hst
      rename_i hlen
      refine h.turn (x := { p with eof := true }.setBuf got) (by rw [hpc]; rfl) (by rw [hpc]; simp)
        rfl rfl rfl h.sums ?_ parses
      have hroom := h.room head got hpc
      simp only [setBuf, List.length_append, List.length_drop]
      omega
    · cases hst
  | readError =>
    simp only [Process.step] at hst
    split at hst
    · split at hst <;> cases hst
      exact h.setup (q := .done) rfl h.sums rfl rfl rfl (by simp) (by simp) (.inr ⟨rfl, rfl⟩)
    · cases hst
  | tick =>
    simp only [Process.step] at hst
    split at hst <;> cases hst
    refine h.beat (q := .write (.start heartbeatHead)) rfl rfl rfl rfl rfl id rfl rfl fun w hw => ?_
    cases hw
    exact ⟨rfl, List.suffix_rfl⟩
  | cancelled =>
    simp only [Process.step] at hst
    split at hst
    · split at hst <;> cases hst
      exact h.beat (q := if p.hasClosed then .done else .waiting) rfl rfl rfl rfl rfl id rfl rfl
        fun w hw => by split at hw <;> cases hw
    · cases hst
  | push t k =>
    simp only [Process.step] at hst
    split at hst
    case h_2 => cases hst
    case h_1 w hw =>
      split at hst <;> cases hst
      rename_i hk
      exact h.push hw hk.2.1 hk.2.2
  | wrote t =>
    simp only [Process.step] at hst
    split at hst
    case h_2 => cases hst
    case h_1 w hw =>
      split at hst
      case isFalse => cases hst
      case isTrue hrest =>
        cases t with
        | setup =>
          cases hst
          have hpc := Decoded.headWrite_setup hw
          obtain ⟨d, hframe⟩ := h.heads.setup w hpc
          have hnil : p.setup.unbegun = [] := by
            rw [hpc, SetupPc.unbegun, if_neg]
            rw [hrest, hframe]
            intro hn
            have hlen := congrArg List.length hn
            rw [ResponseHead.length_bytes] at hlen
            exact absurd hlen (by decide)
          unfold setupLoop
          split
          · exact h.setup (q := .done) rfl h.sums rfl rfl rfl (by simp) (by simp)
              (.inr ⟨rfl, rfl⟩)
          · exact h.setup (q := .readHead []) rfl h.sums rfl rfl rfl (by simp) (by simp)
              (.inl ⟨hnil, by rw [hpc]; simp⟩)
        | heartbeat =>
          cases hst
          exact h.beat (q := if p.hasClosed then .done else .waiting) rfl rfl rfl rfl rfl id rfl rfl
            fun w hw => by split at hw <;> cases hw
  | writeFailed t =>
    simp only [Process.step] at hst
    split at hst
    case h_2 => cases hst
    case h_1 w hw =>
      split at hst
      case isFalse => cases hst
      case isTrue =>
        cases t with
        | setup =>
          cases hst
          exact h.setup (q := .done) rfl h.sums rfl rfl rfl (by simp) (by simp) (.inr ⟨rfl, rfl⟩)
        | heartbeat =>
          cases hst
          exact h.beat (q := .done) rfl rfl rfl rfl rfl (fun _ => rfl) rfl rfl (by simp)

theorem init : Process.init.Replying where
  room head got hpc := by cases hpc
  sums := ⟨rfl, rfl⟩
  heads := Heads.init
  whole t w hw := by cases t <;> cases hw
  replied := ⟨[], rfl, .inl rfl⟩

end Replying

end Process

/-! ## Whole runs -/

/-- **Every call is answered once, in order, with its own total.**  In every run of a
    process the heads that were begun, without the heartbeats, are those that are due for
    its calls, of which the last may be missing: it is still to be sent, or its write
    failed and the session is closed. -/
theorem replied {p : Process} (h : Reach Process.step (fun _ _ => True) .init p) :
    ∃ left, p.replies ++ left = (acks p.handled).map ResponseHead.bytes ∧ left.length ≤ 1 ∧
      (left ≠ [] → (∃ w, p.setup = .write w ∧ w.rest = w.frame) ∨
        p.setup = .done ∧ p.hasClosed = true) := by
  have hp : p.Replying := h.inv .init fun _ _ _ hp _ hst => hp.step hst
  obtain ⟨left, hl, rfl | ⟨hd, hc, hlen⟩⟩ := hp.replied
  · refine ⟨_, hl, p.setup.length_unbegun, fun hne => .inl ?_⟩
    cases hpc : p.setup with
    | write w =>
      rw [hpc, SetupPc.unbegun] at hne
      refine ⟨w, rfl, ?_⟩
      by_contra hrest
      exact hne (if_neg hrest)
    | _ =>
      rw [hpc] at hne
      exact absurd rfl hne
  · exact ⟨left, hl, hlen, fun _ => .inr ⟨hd, hc⟩⟩

/-- Two requests and a response are handled, with a heartbeat between the first two heads; the
    last head is not begun. -/
theorem replied_beat : ∃ p : Process, (acks p.handled).map (fun head => head.handledTotalPkgLen) =
    [1, 3, 1] ∧ p.begun.length = 3 ∧ ∃ left, p.replies ++ left =
      (acks p.handled).map ResponseHead.bytes ∧ left.length ≤ 1 ∧
        (left ≠ [] → (∃ w, p.setup = .write w ∧ w.rest = w.frame) ∨
          p.setup = .done ∧ p.hasClosed = true) := by
  obtain ⟨p, hr, hp⟩ := exists_run Process.step (fun _ _ => True) Process.init
    ([.pull [0, 1, 0, 0, 0], .readDone true, .pull [5], .readDone true, .push .setup 16,
      .wrote .setup, .tick, .push .heartbeat 16, .wrote .heartbeat, .pull [0, 2, 0, 0, 0],
      .readDone true, .pull [6, 7], .readDone true, .push .setup 16, .wrote .setup,
      .pull [1, 1, 0, 0, 0], .readDone true, .pull [8], .readDone true])
    (fun p => ((acks p.handled).map fun head => head.handledTotalPkgLen) == [1, 3, 1] &&
      p.begun.length == 3) (fun _ _ _ => trivial) (by decide +kernel)
  simp only [Bool.and_eq_true, beq_iff_eq] at hp
  exact ⟨p, hp.1, hp.2, replied hr⟩

end CppProxy
