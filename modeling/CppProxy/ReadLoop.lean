/-
  cpp_proxy — the loop that reads the responses (session.hpp).

  `process_2proxy_2client_or_2server` reads a head, reads the new data into
  `proxy_process_buf`, and hands both to `proxy_2server` or `proxy_2client`.  The
  buffer outlives the response: it is resized only when it is too small, so a
  handler sees a buffer that may be longer than its data.

  * `ReadLoop`: the loop on a connection that lasts, with its buffer;
  * `ReadLoop.Follows`: it has dispatched the first responses of the stream;
  * `ReadLoop.settles`: it dispatches them all;
  * `reader_readLoop`: the reader of a session hands on what this loop has in its
    buffer.
-/
import CppProxy.Step

namespace CppProxy

open Runs

/-! ## The loop -/

/-- The program point; in `handling`, one of the two handlers has not returned. -/
inductive LoopPc
  | readHead (got : List Byte)
  | readBody (head : ResponseHead) (got : List Byte)
  | handling (head : ResponseHead)
deriving DecidableEq, Repr

/-- The loop; `received` and `dispatched`, each head with its data, only record
    what happened. -/
structure ReadLoop where
  proxyProcessBuf : List Byte := []
  pc : LoopPc := .readHead []
  received : List Byte := []
  dispatched : List (ResponseHead × List Byte) := []
deriving DecidableEq, Repr

/-- Bytes arrive, a read is complete, or a handler returns without an error. -/
inductive LoopEvent
  | pull (bytes : List Byte)
  | readDone
  | handled
deriving DecidableEq, Repr

/-- What the read has got, and what it wants. -/
def LoopPc.reading : LoopPc → Option (List Byte × ℕ)
  | readHead got => some (got, responseHeadLen)
  | readBody head got => some (got, head.newDataLen.toNat)
  | handling _ => none

/-- The read has got more. -/
def LoopPc.setGot (got : List Byte) : LoopPc → LoopPc
  | readHead _ => readHead got
  | readBody head _ => readBody head got
  | pc => pc

namespace ReadLoop

variable (l : ReadLoop)

/-- `proxy_process_buf.resize(n)`, when it is smaller. -/
def growBuf (n : ℕ) : ReadLoop :=
  { l with proxyProcessBuf := l.proxyProcessBuf ++ List.replicate (n - l.proxyProcessBuf.length) 0 }

/-- The bytes that were read of a body are at the start of the buffer. -/
def setBuf (got : List Byte) : ReadLoop :=
  { l with proxyProcessBuf := got ++ l.proxyProcessBuf.drop got.length }

/-- `{proxy_process_buf.data(), head->new_data_len}`, which a handler writes. -/
def newData (head : ResponseHead) : List Byte := l.proxyProcessBuf.take head.newDataLen.toNat

/-- The `switch` on a response. -/
def dispatch (head : ResponseHead) : ReadLoop :=
  let l := { l with dispatched := l.dispatched ++ [(head, l.newData head)] }
  match DataType.ofCode head.type with
  | some .fromClientToServer => { l with pc := .handling head }
  | some .fromServerToClient => { l with pc := .handling head }
  | _ => { l with pc := .readHead [] }

@[simp] theorem dispatch_proxyProcessBuf (head : ResponseHead) :
    (l.dispatch head).proxyProcessBuf = l.proxyProcessBuf := by
  unfold dispatch
  dsimp only
  split <;> rfl

@[simp] theorem dispatch_dispatched (head : ResponseHead) :
    (l.dispatch head).dispatched = l.dispatched ++ [(head, l.newData head)] := by
  unfold dispatch
  dsimp only
  split <;> rfl

/-- The loop has the head of a response. -/
def gotHead (head : ResponseHead) : ReadLoop :=
  if head.newDataLen ≠ 0 then
    { l.growBuf head.newDataLen.toNat with pc := .readBody head [] }
  else l.dispatch head

/-- One step of the loop; `none` where the event cannot happen. -/
def step : LoopEvent → Option ReadLoop
  | .pull bytes =>
    match l.pc.reading with
    | some (got, want) =>
      if bytes ≠ [] ∧ got.length + bytes.length ≤ want then
        some { l with pc := l.pc.setGot (got ++ bytes), received := l.received ++ bytes }
      else none
    | none => none
  | .readDone =>
    match l.pc with
    | .readHead got =>
      if got.length = responseHeadLen then some (l.gotHead (.ofBytes got)) else none
    | .readBody head got =>
      if got.length = head.newDataLen.toNat then some ((l.setBuf got).dispatch head) else none
    | .handling _ => none
  | .handled =>
    match l.pc with
    | .handling _ => some { l with pc := .readHead [] }
    | _ => none

/-- The process sends `bytes`. -/
def Fed (bytes : List Byte) (l : ReadLoop) : LoopEvent → Prop
  | .pull more => l.received ++ more <+: bytes
  | _ => True

instance (bytes : List Byte) (l : ReadLoop) : ∀ e, Decidable (l.Fed bytes e)
  | .pull _ => inferInstanceAs (Decidable (_ <+: _))
  | .readDone | .handled => inferInstanceAs (Decidable True)

end ReadLoop

/-! ## The stream of responses -/

/-- The bytes of a sequence of responses. -/
def wire (rs : List Response) : List Byte := rs.flatMap Response.bytes

/-- What the loop dispatches for a response. -/
def Response.pair (r : Response) : ResponseHead × List Byte := (r.head, r.body)

@[simp] theorem wire_nil : wire [] = [] := rfl

@[simp] theorem wire_cons (r : Response) (rs : List Response) :
    wire (r :: rs) = r.head.bytes ++ (r.body ++ wire rs) := by
  simp [wire, Response.bytes]

@[simp] theorem wire_append (rs rs' : List Response) : wire (rs ++ rs') = wire rs ++ wire rs' :=
  List.flatMap_append

/-- The first bytes of a stream that are as many as a head are a head. -/
theorem head_of_wire {got : List Byte} {rs : List Response} (hl : got.length = responseHeadLen)
    (hp : got <+: wire rs) : ∃ r rs', rs = r :: rs' ∧ got = r.head.bytes := by
  cases rs with
  | nil =>
    have := hp.length_le
    simp [hl, responseHeadLen] at this
  | cons r rs =>
    rw [wire_cons] at hp
    refine ⟨r, rs, rfl, ?_⟩
    refine (List.prefix_of_prefix_length_le hp (List.prefix_append _ _) ?_).eq_of_length ?_
    · rw [hl, ResponseHead.length_bytes]
    · rw [hl, ResponseHead.length_bytes]

/-- Of a stream that is not there yet, one more byte can arrive. -/
theorem exists_next {part whole : List Byte} (hp : part <+: whole) (hne : part ≠ whole) :
    ∃ b, part ++ [b] <+: whole := by
  obtain ⟨rest, rfl⟩ := hp
  cases rest with
  | nil => simp at hne
  | cons b rest => exact ⟨b, rest, by simp⟩

namespace ReadLoop

variable {l l' : ReadLoop} {rs done todo : List Response}

/-- Where the loop is when it has dispatched `done`, with `todo` to come.  A handler
    finds its data at the start of the buffer for as long as it runs. -/
def At (l : ReadLoop) (done todo : List Response) : Prop :=
  match l.pc with
  | .readHead got => l.received = wire done ++ got ∧ got <+: wire todo ∧
      got.length ≤ responseHeadLen
  | .readBody head got => ∃ r todo', todo = r :: todo' ∧ head = r.head ∧ head.newDataLen ≠ 0 ∧
      l.received = wire done ++ (r.head.bytes ++ got) ∧ got <+: r.body ∧
      head.newDataLen.toNat ≤ l.proxyProcessBuf.length
  | .handling head => l.received = wire done ∧
      ∃ r done', done = done' ++ [r] ∧ head = r.head ∧ l.newData head = r.body

/-- The loop has dispatched the first responses, each with its own data. -/
structure Follows (rs : List Response) (l : ReadLoop) : Prop where
  received : l.received <+: wire rs
  phase : ∃ done todo, rs = done ++ todo ∧ l.dispatched = done.map Response.pair ∧ l.At done todo

/-- What the loop has to do until it has dispatched all. -/
def rank (rs : List Response) (l : ReadLoop) : ℕ :=
  3 * ((wire rs).length - l.received.length) +
    match l.pc with
    | .readHead got => 2 * got.length
    | .readBody _ got => 2 + 2 * got.length
    | .handling _ => 1

theorem Follows.init (rs : List Response) : Follows rs {} :=
  ⟨List.nil_prefix, [], rs, rfl, rfl, by simp [At]⟩

/-- The `switch` on the next response, whose data is at the start of the buffer. -/
theorem Follows.dispatch {x : ReadLoop} {r : Response} (hx : x.received <+: wire rs)
    (hrs : rs = done ++ r :: todo) (hd : x.dispatched = done.map Response.pair)
    (hr : x.received = wire (done ++ [r])) (hbuf : x.newData r.head = r.body) :
    Follows rs (x.dispatch r.head) ∧
      (x.dispatch r.head).rank rs ≤ 3 * ((wire rs).length - x.received.length) + 1 := by
  have hrs' : rs = (done ++ [r]) ++ todo := by simp [hrs]
  have hd' : x.dispatched ++ [(r.head, x.newData r.head)] = (done ++ [r]).map Response.pair := by
    simp [hd, hbuf, Response.pair]
  have hnext : At { x with
      dispatched := x.dispatched ++ [(r.head, x.newData r.head)], pc := .readHead [] }
      (done ++ [r]) todo := ⟨by simpa using hr, List.nil_prefix, Nat.zero_le _⟩
  have hhand : At { x with
      dispatched := x.dispatched ++ [(r.head, x.newData r.head)], pc := .handling r.head }
      (done ++ [r]) todo := ⟨hr, r, done, rfl, rfl, hbuf⟩
  unfold ReadLoop.dispatch
  dsimp only
  split
  · exact ⟨⟨hx, _, todo, hrs', hd', hhand⟩, le_rfl⟩
  · exact ⟨⟨hx, _, todo, hrs', hd', hhand⟩, le_rfl⟩
  · exact ⟨⟨hx, _, todo, hrs', hd', hnext⟩, Nat.le_add_right _ _⟩

/-- **A step** follows the stream, and has less to do. -/
theorem Follows.step {e : LoopEvent} (h : Follows rs l) (hF : l.Fed (wire rs) e)
    (hst : l.step e = some l') : Follows rs l' ∧ l'.rank rs + 1 ≤ l.rank rs := by
  obtain ⟨done, todo, rfl, hd, ha⟩ := h.phase
  cases e with
  | pull more =>
    simp only [ReadLoop.step] at hst
    split at hst
    case h_2 => cases hst
    case h_1 got want hq =>
      split at hst <;> cases hst
      rename_i hp
      have hlen := List.length_pos_iff.2 hp.1
      have hle := List.IsPrefix.length_le hF
      rw [List.length_append] at hle
      cases hpc : l.pc with
      | readHead got' =>
        rw [hpc] at hq; cases hq
        simp only [At, hpc] at ha
        refine ⟨⟨hF, done, todo, rfl, hd, ?_⟩, ?_⟩
        · refine ⟨by simp [ha.1], ?_, by rw [List.length_append]; exact hp.2⟩
          have hF' : l.received ++ more <+: wire (done ++ todo) := hF
          rwa [ha.1, wire_append, List.append_assoc, List.prefix_append_right_inj] at hF'
        · simp only [rank, hpc, LoopPc.setGot, List.length_append]
          omega
      | readBody head got' =>
        rw [hpc] at hq; cases hq
        simp only [At, hpc] at ha
        obtain ⟨r, todo', rfl, rfl, h0, hrec, hbody, hbuf⟩ := ha
        refine ⟨⟨hF, done, _, rfl, hd, r, todo', rfl, rfl, h0, by simp [hrec], ?_, hbuf⟩, ?_⟩
        · have hF' : l.received ++ more <+: wire (done ++ r :: todo') := hF
          rw [hrec, wire_append, wire_cons, List.append_assoc, List.prefix_append_right_inj,
            List.append_assoc, List.prefix_append_right_inj] at hF'
          refine List.prefix_of_prefix_length_le hF' (List.prefix_append _ _) ?_
          rw [List.length_append, r.body_len]
          exact hp.2
        · simp only [rank, hpc, LoopPc.setGot, List.length_append]
          omega
      | handling head => rw [hpc] at hq; cases hq
  | readDone =>
    simp only [ReadLoop.step] at hst
    split at hst
    case h_1 got hpc =>
      split at hst <;> cases hst
      rename_i hl
      simp only [At, hpc] at ha
      obtain ⟨r, todo', rfl, rfl⟩ := head_of_wire hl ha.2.1
      rw [ResponseHead.ofBytes_bytes]
      have hrank : l.rank (done ++ r :: todo') =
          3 * ((wire (done ++ r :: todo')).length - l.received.length) + 32 := by
        simp [rank, hpc, responseHeadLen]
      rw [hrank]
      unfold ReadLoop.gotHead
      split
      · rename_i hne
        refine ⟨⟨h.received, done, _, rfl, hd, r, todo', rfl, rfl, hne,
          by simp [growBuf, ha.1], List.nil_prefix, ?_⟩, ?_⟩
        · simp only [growBuf, List.length_append, List.length_replicate]
          omega
        · simp [rank, growBuf]
      · rename_i h0
        have hbody : r.body = [] := by
          rw [← List.length_eq_zero_iff, r.body_len, not_not.1 h0]
          rfl
        have hdis := Follows.dispatch (x := l) h.received rfl hd (by simp [ha.1, hbody])
          (by rw [newData, not_not.1 h0, hbody]; rfl)
        exact ⟨hdis.1, by have := hdis.2; omega⟩
    case h_2 head got hpc =>
      split at hst <;> cases hst
      rename_i hl
      simp only [At, hpc] at ha
      obtain ⟨r, todo', rfl, rfl, -, hrec, hbody, hbuf⟩ := ha
      obtain rfl := hbody.eq_of_length (hl.trans r.body_len.symm)
      have hdis := Follows.dispatch (x := l.setBuf r.body) h.received rfl hd
        (by simp [setBuf, hrec]) (by rw [newData, setBuf, ← r.body_len, List.take_left])
      refine ⟨hdis.1, hdis.2.trans_lt ?_⟩
      simp only [rank, hpc, setBuf]
      omega
    case h_3 => cases hst
  | handled =>
    simp only [ReadLoop.step] at hst
    split at hst
    case h_2 => cases hst
    case h_1 head hpc =>
      cases hst
      simp only [At, hpc] at ha
      refine ⟨⟨h.received, done, todo, rfl, hd, by simp [ha.1], List.nil_prefix, Nat.zero_le _⟩, ?_⟩
      simp [rank, hpc]

/-- While it has not dispatched all, the loop can go on. -/
theorem Follows.goesOn (h : Follows rs l) :
    (l.received = wire rs ∧ l.pc = .readHead [] ∧ l.dispatched = rs.map Response.pair) ∨
      ∃ e l', l.Fed (wire rs) e ∧ l.step e = some l' := by
  obtain ⟨done, todo, rfl, hd, ha⟩ := h.phase
  -- one byte arrives
  have hpull : ∀ {got want}, l.pc.reading = some (got, want) → got.length < want →
      l.received ≠ wire (done ++ todo) →
      ∃ e l', l.Fed (wire (done ++ todo)) e ∧ l.step e = some l' := by
    intro got want hq hlt hne
    obtain ⟨b, hb⟩ := exists_next h.received hne
    exact ⟨.pull [b], _, hb, by simp only [ReadLoop.step, hq]; exact if_pos ⟨by simp, hlt⟩⟩
  cases hpc : l.pc with
  | readHead got =>
    simp only [At, hpc] at ha
    by_cases hl : got.length = responseHeadLen
    · exact .inr ⟨.readDone, _, trivial, by simp only [ReadLoop.step, hpc]; exact if_pos hl⟩
    by_cases hall : l.received = wire (done ++ todo)
    · have hgot : got = wire todo := by
        rw [ha.1, wire_append] at hall
        exact List.append_cancel_left hall
      cases todo with
      | nil =>
        refine .inl ⟨hall, by rw [hgot]; rfl, by simpa using hd⟩
      | cons r todo =>
        have := congrArg List.length hgot
        simp only [wire_cons, List.length_append, ResponseHead.length_bytes] at this
        omega
    · exact .inr (hpull (by rw [hpc]; rfl) (by omega) hall)
  | readBody head got =>
    simp only [At, hpc] at ha
    obtain ⟨r, todo', rfl, rfl, -, hrec, hbody, -⟩ := ha
    by_cases hl : got.length = r.head.newDataLen.toNat
    · exact .inr ⟨.readDone, _, trivial, by simp only [ReadLoop.step, hpc]; exact if_pos hl⟩
    have hlt : got.length < r.head.newDataLen.toNat :=
      lt_of_le_of_ne (r.body_len ▸ hbody.length_le) hl
    refine .inr (hpull (by rw [hpc]; rfl) hlt fun hall => ?_)
    have := congrArg List.length hall
    simp only [hrec, wire_append, wire_cons, List.length_append, r.body_len] at this
    omega
  | handling head =>
    exact .inr ⟨.handled, { l with pc := .readHead [] }, trivial, by simp only [ReadLoop.step, hpc]⟩

theorem follows (h : Reach ReadLoop.step (ReadLoop.Fed (wire rs)) {} l) : Follows rs l :=
  h.inv (Follows.init rs) fun _ _ _ hl hF hst => (hl.step hF hst).1

/-- **The loop dispatches all responses**: it takes a bounded number of steps, and it
    can go on until it has. -/
theorem Follows.settles (h : Follows rs l) :
    Settles ReadLoop.step (ReadLoop.Fed (wire rs)) (fun _ => True) (fun l =>
      l.received = wire rs ∧ l.pc = .readHead [] ∧ l.dispatched = rs.map Response.pair) l := by
  refine settles_of_rank (I := Follows rs) (rank rs) h (fun l e l' hl hF hst => ?_) fun l hl => ?_
  · simpa using hl.step hF hst
  · simpa using hl.goesOn

/-- The buffer only ever grows. -/
theorem buf_mono {e : LoopEvent} (hst : l.step e = some l') :
    l.proxyProcessBuf.length ≤ l'.proxyProcessBuf.length := by
  cases e with
  | pull more =>
    simp only [ReadLoop.step] at hst
    split at hst
    case h_2 => cases hst
    case h_1 => split at hst <;> cases hst; exact le_rfl
  | readDone =>
    simp only [ReadLoop.step] at hst
    split at hst
    case h_1 got hpc =>
      split at hst <;> cases hst
      unfold ReadLoop.gotHead
      split
      · simp [growBuf]
      · rw [dispatch_proxyProcessBuf]
    case h_2 head got hpc =>
      split at hst <;> cases hst
      rw [dispatch_proxyProcessBuf, setBuf, List.length_append, List.length_drop]
      omega
    case h_3 => cases hst
  | handled =>
    simp only [ReadLoop.step] at hst
    split at hst <;> cases hst
    exact le_rfl

end ReadLoop

/-! ## The readers of a session -/

/-- A reader of a session and the loop have read the same. -/
def ReaderPc.SameRead (r : LinkRead) : ReaderPc → LoopPc → Prop
  | .readHead r', .readHead got => r' = r ∧ got = r.got ∧ r.want = responseHeadLen
  | .readBody head r', .readBody head' got =>
    r' = r ∧ head' = head ∧ got = r.got ∧ r.want = head.newDataLen.toNat
  | _, _ => False

/-- **A reader of a session** goes on like the loop: it reads a body, or it dispatches
    the data that is in the buffer. -/
theorem reader_readLoop {s s' : Session} {i : ℕ} {l : ReadLoop} {r : LinkRead}
    (h : (s.readers i).pc.SameRead r l.pc) (hst : s.onComplete (.reader i) = some s') :
    ∃ l' head, l.step .readDone = some l' ∧
      (s' = s.readBody i head ∧ l'.pc = .readBody head [] ∨
        ∃ data, s' = s.dispatch i r.gen head data ∧
          l'.dispatched = l.dispatched ++ [(head, data)]) := by
  cases hpc : (s.readers i).pc with
  | readHead r' =>
    cases hl : l.pc with
    | readHead got =>
      rw [hpc, hl] at h
      obtain ⟨rfl, rfl, hw⟩ := h
      simp only [Session.onComplete, hpc] at hst
      split at hst
      case isFalse => cases hst
      case isTrue hfin =>
        have hstep : l.step .readDone = some (l.gotHead (.ofBytes r'.got)) := by
          simp only [ReadLoop.step, hl]
          exact if_pos (hfin.2.trans hw)
        refine ⟨_, .ofBytes r'.got, hstep, ?_⟩
        unfold ReadLoop.gotHead
        split at hst
        · rename_i hne
          cases hst
          rw [if_pos hne]
          exact .inl ⟨rfl, rfl⟩
        · rename_i h0
          cases hst
          rw [if_neg h0]
          refine .inr ⟨[], rfl, ?_⟩
          rw [ReadLoop.dispatch_dispatched, ReadLoop.newData, not_not.1 h0]
          rfl
    | _ => rw [hpc, hl] at h; exact h.elim
  | readBody head r' =>
    cases hl : l.pc with
    | readBody head' got =>
      rw [hpc, hl] at h
      obtain ⟨rfl, rfl, rfl, hw⟩ := h
      simp only [Session.onComplete, hpc] at hst
      split at hst <;> cases hst
      rename_i hfin
      have hlen : r'.got.length = head'.newDataLen.toNat := hfin.2.trans hw
      refine ⟨(l.setBuf r'.got).dispatch head', head', ?_, .inr ⟨r'.got, rfl, ?_⟩⟩
      · simp only [ReadLoop.step, hl]
        exact if_pos hlen
      · rw [ReadLoop.dispatch_dispatched, ReadLoop.newData, ReadLoop.setBuf, ← hlen,
          List.take_left]
    | _ => rw [hpc, hl] at h; exact h.elim
  | _ => rw [hpc] at h; cases hl : l.pc <;> rw [hl] at h <;> exact h.elim

end CppProxy
