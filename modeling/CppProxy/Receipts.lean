/-
  cpp_proxy — the receipts of the payloads.

  The process handles the payloads of a direction as they were framed, and answers
  each with the total up to its end.

  * `payloads`: the payloads of a direction in a sequence of calls; `sums`: the totals
    up to their ends; `ackTotals`: the totals that a sequence of heads acknowledges;
  * `ackTotals_acks`: the heads that are due acknowledge the payloads, one by one;
  * `System.Mailed`: on each connection of the proxy are the heads that its process has
    begun, whatever happens;
  * `Session.Asks`: no frame of a request is empty;
  * `acknowledged`: while the connection lasts, each payload is handled once and in
    order, and acknowledged once and in order.
-/
import CppProxy.Bypass
import CppProxy.Replies
import CppProxy.System

namespace CppProxy

open Session Runs

/-! ## Payloads and totals -/

/-- The payloads of direction `d` in a sequence of calls, without the empty ones. -/
def payloads (d : Dir) (calls : List (DataType × List Byte)) : List (List Byte) :=
  calls.filterMap fun c => if c.1 = d.dataType ∧ c.2 ≠ [] then some c.2 else none

/-- The totals up to the end of each payload. -/
def sums (datas : List (List Byte)) : List UInt64 :=
  (List.range datas.length).map fun i => UInt64.ofNat (datas.take (i + 1)).flatten.length

/-- The total of direction `d` that a head acknowledges. -/
def ResponseHead.ackTotal (d : Dir) (head : ResponseHead) : Option UInt64 :=
  if DataType.ofCode head.type = some d.dataType then some head.handledTotalPkgLen else none

/-- The totals of direction `d` that a sequence of heads acknowledges. -/
def ackTotals (d : Dir) (heads : List ResponseHead) : List UInt64 :=
  heads.filterMap (ResponseHead.ackTotal d)

theorem payloads_append (d : Dir) (cs cs' : List (DataType × List Byte)) :
    payloads d (cs ++ cs') = payloads d cs ++ payloads d cs' := List.filterMap_append

theorem ackTotals_append (d : Dir) (heads heads' : List ResponseHead) :
    ackTotals d (heads ++ heads') = ackTotals d heads ++ ackTotals d heads' :=
  List.filterMap_append

theorem sums_snoc (datas : List (List Byte)) (data : List Byte) :
    sums (datas ++ [data]) = sums datas ++ [UInt64.ofNat (datas ++ [data]).flatten.length] := by
  rw [sums, List.length_append, List.length_singleton, List.range_succ, List.map_append]
  congr 1
  · refine List.map_congr_left fun i hi => ?_
    rw [List.take_append_of_le_length (List.mem_range.1 hi)]
  · rw [List.map_singleton, List.take_of_length_le (by simp)]

theorem take_sums (datas : List (List Byte)) (n : ℕ) :
    (sums datas).take n = sums (datas.take n) := by
  rw [sums, sums, ← List.map_take, List.take_range, List.length_take, min_comm]
  refine List.map_congr_left fun i hi => ?_
  rw [List.take_take, min_eq_left]
  have := List.mem_range.1 hi
  omega

/-- The calls of a direction are as long as its payloads. -/
theorem totalLen_payloads (d : Dir) (cs : List (DataType × List Byte)) :
    totalLen d.dataType cs = (payloads d cs).flatten.length := by
  induction cs with
  | nil => rfl
  | cons c cs ih =>
    rw [show c :: cs = [c] ++ cs from rfl, totalLen_append, payloads_append, List.flatten_append,
      List.length_append, ih]
    obtain ⟨t, data⟩ := c
    rw [totalLen_singleton]
    congr 1
    by_cases ht : t = d.dataType
    · by_cases hd : data = []
      · simp [payloads, hd]
      · simp [payloads, ht, hd]
    · simp [payloads, ht]

/-- An acknowledgement of a payload has the total up to its end. -/
theorem ackTotal_passHead (d d' : Dir) (total : UInt64) :
    (passHead d'.dataType total).ackTotal d = if d' = d then some total else none := by
  rw [ResponseHead.ackTotal]
  show (if DataType.ofCode d'.dataType.code = some d.dataType then _ else _) = _
  rw [DataType.ofCode_code]
  cases d <;> cases d' <;> rfl

/-- The payloads of a call. -/
theorem payloads_singleton (d : Dir) (t : DataType) (data : List Byte) :
    payloads d [(t, data)] = if t = d.dataType ∧ data ≠ [] then [data] else [] := by
  by_cases h : t = d.dataType ∧ data ≠ []
  · rw [if_pos h]
    exact List.filterMap_cons_some (if_pos h)
  · rw [if_neg h]
    exact List.filterMap_cons_none (if_neg h)

/-- A call with a payload is answered; one without is not, unless it is an empty request. -/
theorem ackOf_cases (before : List (DataType × List Byte)) {t : DataType} {data : List Byte}
    (h : (t, data) ≠ (.fromClientToServer, [])) :
    (∃ d : Dir, t = d.dataType ∧ data ≠ [] ∧ ackOf before (t, data) =
      some (passHead d.dataType (UInt64.ofNat (totalLen d.dataType before + data.length)))) ∨
    (∀ d, payloads d [(t, data)] = []) ∧ ackOf before (t, data) = none := by
  cases t with
  | fromClientToServer => exact .inl ⟨.req, rfl, fun hd => h (by rw [hd]), rfl⟩
  | fromServerToClient =>
    by_cases hd : data = []
    · refine .inr ⟨fun d => ?_, ?_⟩
      · rw [payloads_singleton, if_neg fun hp => hp.2 hd]
      · rw [hd]
        rfl
    · exact .inl ⟨.res, rfl, hd, if_neg hd⟩
  | fourTuple | heartbeat =>
    refine .inr ⟨fun d => ?_, rfl⟩
    rw [payloads_singleton, if_neg]
    rintro ⟨ht, -⟩
    cases d <;> cases ht

/-- The call of a frame has its payload. -/
theorem payloads_callOf {head body : List Byte} (hh : head.length = frameHeadLen) (d : Dir) :
    payloads d (callOf (head.getD 0 0) body).toList = carried d [head ++ body] := by
  cases head with
  | nil => cases hh
  | cons c rest =>
    have hdrop : (c :: rest ++ body).drop frameHeadLen = body := by
      rw [← hh, List.drop_left]
    have hcarried : carried d [c :: rest ++ body] =
        if c = d.dataType.code ∧ body ≠ [] then [body] else [] := by
      simp only [carried, List.filterMap_cons, List.filterMap_nil, payloadOf, hdrop]
      by_cases hc : c = d.dataType.code ∧ body ≠ []
      · simp [hc]
      · simp [hc]
    rw [hcarried]
    show payloads d (callOf c body).toList = _
    unfold callOf
    cases ht : DataType.ofCode c with
    | none =>
      rw [if_neg]
      · rfl
      · rintro ⟨rfl, -⟩
        simp at ht
    | some t =>
      obtain rfl := DataType.ofCode_eq_some.1 ht
      simp only [DataType.code_inj]
      by_cases hb : t = .heartbeat
      · subst hb
        cases d <;> rfl
      · rw [Option.filter_some_pos (by simpa using hb)]
        exact payloads_singleton d t body

/-- **The calls of the frames have their payloads.** -/
theorem payloads_calls (d : Dir) {frames : List (List Byte × List Byte)}
    (h : ∀ f ∈ frames, f.1.length = frameHeadLen) :
    payloads d (calls frames) = carried d (frames.map fun f => f.1 ++ f.2) := by
  induction frames with
  | nil => rfl
  | cons f frames ih =>
    have hcons : calls (f :: frames) = (callOf (f.1.getD 0 0) f.2).toList ++ calls frames := by
      show calls ([f] ++ frames) = _
      rw [calls, List.filterMap_append]
      rfl
    rw [hcons, payloads_append, payloads_callOf (h f (by simp)),
      ih fun g hg => h g (by simp [hg]), ← carried_append]
    rfl

/-- **The heads that are due acknowledge the payloads**, one by one, if no request is empty. -/
theorem ackTotals_acks (d : Dir) {cs : List (DataType × List Byte)}
    (h : ∀ c ∈ cs, c ≠ (.fromClientToServer, [])) :
    ackTotals d (acks cs) = sums (payloads d cs) := by
  induction cs using List.reverseRecOn with
  | nil => rfl
  | append_singleton cs c ih =>
    obtain ⟨t, data⟩ := c
    rw [acks_snoc, ackTotals_append, payloads_append, ih fun c hc => h c (by simp [hc])]
    rcases ackOf_cases cs (h (t, data) (by simp)) with ⟨d', rfl, hd, hack⟩ | ⟨hnil, hack⟩
    · rw [hack, Option.toList_some, ackTotals, List.filterMap_cons, ackTotal_passHead]
      by_cases hdd : d' = d
      · subst hdd
        rw [if_pos rfl, payloads_singleton, if_pos ⟨rfl, hd⟩, sums_snoc, totalLen_payloads,
          List.flatten_append, List.length_append, List.flatten_singleton]
        rfl
      · have hne : d'.dataType ≠ d.dataType := by
          cases d <;> cases d' <;> first | exact absurd rfl hdd | simp [Dir.dataType]
        rw [if_neg hdd, payloads_singleton, if_neg fun hp => hne hp.1, List.append_nil]
        exact List.append_nil _
    · rw [hack, hnil d, List.append_nil]
      exact List.append_nil _

/-! ## The heads on a connection -/

namespace Process

variable {p p' : Process}

theorem begun_handle (p : Process) (head : List Byte) (parses : Bool) :
    (p.handle head parses).begun = p.begun := (p.turns_handle head parses).begun

theorem begun_setupHead (p : Process) (head : List Byte) (parses : Bool) :
    (p.setupHead head parses).begun = p.begun := by
  unfold setupHead
  dsimp only
  split
  · rfl
  · exact begun_handle _ _ _

/-- Only a step that sends begins a head. -/
theorem begun_of_step {e : ProcessEvent} (hst : p.step e = some p')
    (he : ∀ t k, e ≠ .push t k) : p'.begun = p.begun := by
  cases e with
  | push t k => exact absurd rfl (he t k)
  | readDone parses =>
    simp only [Process.step] at hst
    split at hst
    · split at hst <;> cases hst
      exact begun_setupHead _ _ _
    · split at hst <;> cases hst
      exact begun_handle _ _ _
    · cases hst
  | readEof garbage parses =>
    simp only [Process.step] at hst
    split at hst
    · split at hst <;> cases hst
      exact begun_setupHead _ _ _
    · split at hst <;> cases hst
      exact begun_handle _ _ _
    · cases hst
  | wrote t =>
    simp only [Process.step] at hst
    split at hst
    · split at hst
      · cases t with
        | setup =>
          cases hst
          unfold setupLoop
          split <;> rfl
        | heartbeat =>
          cases hst
          rfl
      · cases hst
    · cases hst
  | writeFailed t =>
    simp only [Process.step] at hst
    split at hst
    · split at hst
      · cases t <;> cases hst <;> rfl
      · cases hst
    · cases hst
  | tick =>
    simp only [Process.step] at hst
    split at hst <;> cases hst
    rfl
  | pull | readError | cancelled =>
    simp only [Process.step] at hst
    split at hst
    · split at hst <;> cases hst
      rfl
    · cases hst

/-- **The heads that are begun** are put on the connection. -/
theorem Heads.begun_of_step (h : p.Heads) {e : ProcessEvent} (hst : p.step e = some p') :
    p'.begun = p.begun ++ ((p.begins e).map fun r => r.head.bytes).toList := by
  by_cases he : ∀ t k, e ≠ .push t k
  · have hnone : p.begins e = none := by
      cases e with
      | push t k => exact absurd rfl (he t k)
      | _ => rfl
    rw [Process.begun_of_step hst he, hnone]
    exact (List.append_nil _).symm
  · push Not at he
    obtain ⟨t, k, rfl⟩ := he
    simp only [Process.step] at hst
    split at hst
    case h_2 => cases hst
    case h_1 w hw =>
      have hbegun : p'.begun = p.begun ++ if w.rest = w.frame then [w.frame] else [] := by
        split at hst <;> cases hst
        cases t <;> rfl
      rw [hbegun, Process.begins, hw, Option.bind_some]
      split
      · obtain ⟨r, hr, hbytes, hhead⟩ := h.begins hw
        have hlen : r.head.newDataLen = 0 := by
          rcases hhead with hh | ⟨d, hh⟩ <;> rw [hh] <;> rfl
        have hbody : r.body = [] := by
          refine List.length_eq_zero_iff.1 ?_
          rw [r.body_len, hlen]
          rfl
        rw [hr, ← hbytes, Response.bytes, hbody, List.append_nil]
        rfl
      · rfl

end Process

/-- The heads of the responses on the current connection. -/
def Session.heads (s : Session) (g : ℕ) : List ResponseHead :=
  (s.links g).responses.map Response.head

/-- On each connection are the heads that its process has begun. -/
structure System.Mailed (y : System) : Prop where
  replying : ∀ g, (y.process g).Replying
  fresh : ∀ g, g = 0 ∨ y.proxy.conns < g → y.process g = .init
  mailed : ∀ g, (y.proxy.heads g).map ResponseHead.bytes = (y.process g).begun

namespace System.Mailed

variable {y y' : System}

theorem init (c : Conf) : (System.init c).Mailed :=
  ⟨fun _ => .init, fun _ _ => rfl, fun _ => rfl⟩

/-- **The heads arrive as they were begun**, whatever the two programs do. -/
theorem step (h : y.Mailed) {e : SystemEvent} (hst : y.step e = some y') : y'.Mailed := by
  rcases System.step_cases hst with
    ⟨e, s', rfl, hr, hresp, rfl⟩ | ⟨g, e, p, s', rfl, ⟨h0, hg⟩, -, hp, hs', rfl⟩
  · by_cases hc : ∃ j, e = .connect j
    · obtain ⟨j, rfl⟩ := hc
      cases hr with
      | connect =>
        refine ⟨h.replying, fun g hg => h.fresh g (hg.imp_right Nat.lt_of_succ_lt), fun g => ?_⟩
        by_cases hg : g = y.proxy.conns + 1
        · subst hg
          rw [h.fresh _ (.inr (Nat.lt_succ_self _))]
          simp [Session.heads, Process.init]
        · refine Eq.trans ?_ (h.mailed g)
          simp [Session.heads, hg]
    · have hframe := frame_of_rule hr
      have hcon : ∀ j, e ≠ .connect j := fun j hj => hc ⟨j, hj⟩
      have hheads : ∀ g, s'.heads g = y.proxy.heads g := fun g =>
        congrArg (List.map Response.head) (hframe.responses hcon hresp g)
      have hconns : s'.conns = y.proxy.conns := hframe.conns hcon
      exact ⟨h.replying, fun g hg => h.fresh g (hconns ▸ hg), fun g => by
        rw [hheads g]
        exact h.mailed g⟩
  · have hbegun := (h.replying g).heads.begun_of_step hp
    -- what the step puts on the connection
    have hput : ∀ {x : Session}, x.conns = y.proxy.conns →
        x.heads g = y.proxy.heads g ++ (((y.process g).begins e).map Response.head).toList →
        (∀ g' ≠ g, x.heads g' = y.proxy.heads g') →
          System.Mailed ⟨x, Function.update y.process g p⟩ := by
      intro x hconns hself hother
      refine ⟨fun g' => ?_, fun g' hg' => ?_, fun g' => ?_⟩
      · show (Function.update y.process g p g').Replying
        by_cases hgg : g' = g
        · subst hgg
          rw [Function.update_self]
          exact (h.replying g').step hp
        · rw [Function.update_of_ne hgg]
          exact h.replying g'
      · rw [hconns] at hg'
        exact (Function.update_of_ne (by omega) _ _).trans (h.fresh g' hg')
      · show (x.heads g').map ResponseHead.bytes = (Function.update y.process g p g').begun
        by_cases hgg : g' = g
        · subst hgg
          rw [Function.update_self, hbegun, hself, List.map_append, h.mailed]
          cases (y.process g').begins e <;> rfl
        · rw [Function.update_of_ne hgg, hother g' hgg]
          exact h.mailed g'
    rcases System.answer_eq hs' with ⟨hnone, rfl⟩ | ⟨r, hr, hrule⟩
    · refine hput rfl ?_ fun _ _ => rfl
      rw [hnone]
      exact (List.append_nil _).symm
    · cases hrule with
      | respond =>
        refine hput rfl ?_ fun g' hgg => ?_
        · rw [hr]
          simp [Session.heads]
        · simp [Session.heads, hgg]

end System.Mailed

/-! ## Requests are not empty -/

theorem frame_inj {t t' : DataType} {data data' : List Byte} (h : frame t data = frame t' data') :
    t = t' ∧ data = data' := by
  constructor
  · exact DataType.code_inj.1 (List.cons.inj h).1
  · rw [← drop_frame t data, h, drop_frame]

/-- No frame of a request is empty. -/
structure Session.Asks (s : Session) : Prop where
  writes : ∀ t w, s.linkWrite t = some w → w.frame ≠ frame .fromClientToServer []
  begun : ∀ g, frame .fromClientToServer [] ∉ (s.links g).begun

namespace Session.Asks

variable {s s' : Session}

/-- A coroutine starts to send a request only with a payload. -/
theorem starts (hroom : ∀ d live, (s.way d).relay = .readProcess live → s.room d ≠ 0) {e : Event}
    {f : List Byte} (hf : s.Starts e f) : f ≠ frame .fromClientToServer [] := by
  rintro rfl
  rcases hf with hf | hf | ⟨d, live, bytes, -, hpc, hnil, hf⟩
  · cases (frame_inj hf).1
  · cases (frame_inj hf).1
  · exact hroom d live hpc (hnil (frame_inj hf).2.symm)

theorem step (h : s.Asks) (hroom : ∀ d live, (s.way d).relay = .readProcess live → s.room d ≠ 0)
    {e : Event} (hr : Rule s e s') : s'.Asks where
  writes t w hw := by
    rcases starts_of_rule hr hw with ⟨w', hw', hf⟩ | hf
    · rw [hf]
      exact h.writes t w' hw'
    · exact starts hroom hf
  begun g hf := by
    rcases begun_of_rule hr hf with hf | ⟨t, w, hw, hf⟩
    · exact h.begun g hf
    · exact h.writes t w hw hf.symm

theorem init (c : Conf) : (Session.init c).Asks where
  writes t w hw := by
    cases t with
    | relay d => cases d <;> cases hw
    | connector j =>
      by_cases hj : j = 0
      · subst hj
        cases hw
      · rw [linkWrite, (Shape.init c).connectors j (Nat.one_le_iff_ne_zero.2 hj)] at hw
        cases hw
    | reader => cases hw
    | detector => cases hw
  begun g hf := by cases hf

end Session.Asks

/-- No call has an empty request if no frame does. -/
theorem calls_ne {frames : List (List Byte × List Byte)}
    (hl : ∀ f ∈ frames, f.1.length = frameHeadLen) (hf : ∀ f ∈ frames, IsFrame (f.1 ++ f.2))
    (h : ∀ f ∈ frames, f.1 ++ f.2 ≠ frame .fromClientToServer []) :
    ∀ c ∈ calls frames, c ≠ (.fromClientToServer, []) := by
  rintro c hc rfl
  obtain ⟨f, hmem, hcall⟩ := List.mem_filterMap.1 hc
  obtain ⟨type, payload, -, heq⟩ := hf f hmem
  have hdrop := congrArg (List.drop frameHeadLen) heq
  rw [drop_frame, ← hl f hmem, List.drop_left] at hdrop
  obtain ⟨t, ht, htc⟩ := Option.map_eq_some_iff.1 hcall
  obtain ⟨rfl, hnil⟩ := Prod.mk.inj htc
  obtain ⟨ht, -⟩ := Option.filter_eq_some_iff.1 ht
  refine h f hmem ?_
  rw [heq, ← hdrop, hnil]
  have hhead : f.1.getD 0 0 = type.code := by
    have := congrArg (fun l => l.getD 0 0) heq
    cases hf1 : f.1 with
    | nil =>
      have := hl f hmem
      rw [hf1] at this
      cases this
    | cons c rest =>
      rw [hf1] at this
      exact this
  rw [hhead, DataType.ofCode_code] at ht
  rw [Option.some.inj ht]

/-! ## Runs -/

/-- Each payload of the current connection is handled and acknowledged once, in order:
    the process has handled the first `m` payloads, as they were framed, and has
    acknowledged all of them, or all but the last. -/
def System.Acknowledges (y : System) (d : Dir) : Prop :=
  ∃ n m, n ≤ m ∧ m ≤ n + 1 ∧ m ≤ (y.proxy.link.frames d).length ∧
    payloads d y.peer.handled = (y.proxy.link.frames d).take m ∧
      ackTotals d (y.proxy.heads y.proxy.conns) = sums ((y.proxy.link.frames d).take n)

/-- The two programs while the connection lasts, and what is on it. -/
structure System.Receipted (y : System) : Prop where
  sound : y.Sound
  mailed : y.Mailed
  asks : y.proxy.hasClosed = false → y.proxy.Asks

/-- The totals in a sequence of bytes of heads. -/
theorem ackTotals_bytes (d : Dir) (heads : List ResponseHead) :
    (heads.map ResponseHead.bytes).filterMap (fun f => (ResponseHead.ofBytes f).ackTotal d) =
      ackTotals d heads := by
  rw [List.filterMap_map]
  refine congrArg (heads.filterMap ·) (funext fun head => ?_)
  simp

/-- A heartbeat acknowledges nothing. -/
theorem ackTotals_replies (d : Dir) (p : Process) :
    p.replies.filterMap (fun f => (ResponseHead.ofBytes f).ackTotal d) =
      p.begun.filterMap (fun f => (ResponseHead.ofBytes f).ackTotal d) := by
  rw [Process.replies, List.filterMap_filter]
  refine congrArg (p.begun.filterMap ·) (funext fun f => ?_)
  by_cases hf : f = heartbeatHead.bytes
  · subst hf
    rw [ResponseHead.ofBytes_bytes]
    cases d <;> rfl
  · simp [hf]

namespace System.Receipted

variable {y y' : System}

theorem init (c : Conf) : (System.init c).Receipted :=
  ⟨.init c, .init c, fun _ => .init c⟩

theorem step (h : y.Receipted) {e : SystemEvent} (hL : KeepsApartShort y e)
    (hst : y.step e = some y') :
    y'.Receipted := by
  refine ⟨h.sound.step hL hst, h.mailed.step hst, fun ho => ?_⟩
  have hasks : ∀ {e s'}, Rule y.proxy e s' → s'.hasClosed = false → s'.Asks := by
    intro e s' hr ho
    have hopen : y.proxy.hasClosed = false := open_before_of_rule hr ho
    exact (h.asks hopen).step (fun d live hpc => (h.sound.joined hopen).wired.room_ne hpc) hr
  rcases System.step_cases hst with
    ⟨e, s', rfl, hr, -, rfl⟩ | ⟨g, e, p, s', rfl, -, -, -, hs', rfl⟩
  · exact hasks hr ho
  · rcases System.answer_eq hs' with ⟨-, rfl⟩ | ⟨r, -, hr⟩
    · exact h.asks ho
    · exact hasks hr ho

/-- **An open session has what its process acknowledges.** -/
theorem acknowledges (h : y.Receipted) (ho : y.proxy.hasClosed = false) (d : Dir) :
    y.Acknowledges d := by
  have hj := h.sound.joined ho
  have hsent := hj.linked.sent y.proxy.conns
  obtain ⟨frames, hh, hl, hpre, -⟩ := hj.decoded.handles hj.eof hsent.frames_ok hsent.within
  have hmem : ∀ f ∈ frames, f.1 ++ f.2 ∈ y.proxy.link.begun := fun f hf =>
    hpre.subset (List.mem_map_of_mem hf)
  have hpay : payloads d y.peer.handled <+: y.proxy.link.frames d := by
    rw [hh, payloads_calls d hl]
    exact hj.carried_frames hpre d
  have hacks : ackTotals d (acks y.peer.handled) = sums (payloads d y.peer.handled) := by
    refine ackTotals_acks d ?_
    rw [hh]
    refine calls_ne hl (fun f hf => hsent.frames_ok _ (hmem f hf)) fun f hf hn => ?_
    exact (h.asks ho).begun y.proxy.conns (hn ▸ hmem f hf)
  -- at most one head is still to be begun
  obtain ⟨left, hleft, hone⟩ := (h.mailed.replying y.proxy.conns).replied
  have hlen : left.length ≤ 1 := by
    rcases hone with rfl | ⟨-, -, hlen⟩
    · exact SetupPc.length_unbegun _
    · exact hlen
  have htotals : ackTotals d (y.proxy.heads y.proxy.conns) ++
      left.filterMap (fun f => (ResponseHead.ofBytes f).ackTotal d) =
        sums (payloads d y.peer.handled) := by
    rw [← hacks, ← ackTotals_bytes d (acks _), ← ackTotals_bytes d (y.proxy.heads _),
      h.mailed.mailed, ← ackTotals_replies, ← List.filterMap_append, hleft]
    rfl
  have hcount := congrArg List.length htotals
  have hle := (List.length_filterMap_le (fun f => (ResponseHead.ofBytes f).ackTotal d) left).trans
    hlen
  rw [List.length_append, sums, List.length_map, List.length_range] at hcount
  have htake : payloads d y.peer.handled =
      (y.proxy.link.frames d).take (payloads d y.peer.handled).length :=
    List.prefix_iff_eq_take.1 hpay
  refine ⟨(ackTotals d (y.proxy.heads y.proxy.conns)).length, _, by omega, by omega,
    hpay.length_le, htake, ?_⟩
  have hpre : ackTotals d (y.proxy.heads y.proxy.conns) <+: sums (payloads d y.peer.handled) :=
    ⟨_, htotals⟩
  refine (List.prefix_iff_eq_take.1 hpre).trans ?_
  rw [take_sums, htake, List.take_take, min_eq_left]
  omega

end System.Receipted

/-- **Each payload is acknowledged once**: in every run of the two programs in which the
    connection lasts, an open session's process has handled the first payloads of each
    direction as they were framed, and has acknowledged each of them, or all but the last,
    with the total up to its end. -/
theorem acknowledged {c : Conf} {y : System}
    (h : Reach System.step System.KeepsApartShort (System.init c) y) (ho : y.proxy.hasClosed = false)
    (d : Dir) : y.Acknowledges d := by
  have hy : y.Receipted := h.inv (.init c) fun _ _ _ hy hL hst => hy.step hL hst
  exact hy.acknowledges ho d

/-- A byte in each direction is acknowledged; the next one of the server is handled, and
    its head is not begun. -/
theorem acknowledged_both : ∃ y : System, y.proxy.hasClosed = false ∧
    ackTotals .req (y.proxy.heads 1) = [1] ∧ ackTotals .res (y.proxy.heads 1) = [1] ∧
      payloads .res (y.process 1).handled = [[8], [9]] ∧ ∀ d, y.Acknowledges d := by
  obtain ⟨y, hy, hp⟩ := exists_runIf System.step System.KeepsApartShort
    (System.init (localConf false))
    (firstUp.map SystemEvent.proxy ++ tupleRead ++
      [.proxy (.read .res (.data [7])), .proxy (.push (.relay .res) 1),
        .proxy (.complete (.relay .res)), .proxy (.read .req (.data [2])),
        .proxy (.push (.relay .req) 6), .process 1 (.pull [0, 1, 0, 0, 0]),
        .process 1 (.readDone true), .process 1 (.pull [2]), .process 1 (.readDone true),
        .process 1 (.push .setup 16), .process 1 (.wrote .setup),
        .proxy (.read .res (.data [8])), .proxy (.push (.relay .res) 6),
        .proxy (.complete (.relay .res)), .process 1 (.pull [1, 1, 0, 0, 0]),
        .process 1 (.readDone true), .process 1 (.pull [8]), .process 1 (.readDone true),
        .process 1 (.push .setup 16), .process 1 (.wrote .setup),
        .proxy (.read .res (.data [9])), .proxy (.push (.relay .res) 6),
        .process 1 (.pull [1, 1, 0, 0, 0]), .process 1 (.readDone true), .process 1 (.pull [9]),
        .process 1 (.readDone true)])
    (fun y => y.proxy.hasClosed == false && ackTotals .req (y.proxy.heads 1) == [1] &&
      ackTotals .res (y.proxy.heads 1) == [1] &&
        payloads .res (y.process 1).handled == [[8], [9]])
    (by decide +kernel)
  simp only [Bool.and_eq_true, beq_iff_eq] at hp
  exact ⟨y, hp.1.1.1, hp.1.1.2, hp.1.2, hp.2, fun d => acknowledged hy hp.1.1.1 d⟩

end CppProxy
