/-
  cpp_proxy — what a block leaves running.

  A response with act `block` is acted on only after its new data is written,
  and while that write is in progress every other coroutine runs on: a direct
  read forwards its data, a failed write to the process flushes its queue.

  * `Session.BlockFinal`: no payload is written after a response that blocks but
    its own new data;
  * `Session.Blocking`, `HoldsBlock`: the new data of a block is being written,
    and the steps that start no payload meanwhile;
  * `Ended`: a session that has read a block is closed, or writes its new data;
  * `blockFinal_of_holdsBlock`: then a block is final.
-/
import CppProxy.Lib.Traces
import CppProxy.Moves
import CppProxy.Trace

namespace CppProxy

open Session Runs Traces

/-- An `async_write` of payload to a peer whose socket is open. -/
def Act.Payload : Act → Prop
  | direct _ live data | flush _ live data | newData _ live data
  | release _ live _ _ _ _ _ data => live = true ∧ data ≠ []
  | _ => False

/-- After a response that blocks, payload is written only as its new data. -/
def Act.Final (pre : List Act) (a : Act) : Prop :=
  a.Payload → ∀ i head, .response i head ∈ pre → head.act = Action.block.code →
    ∃ d live data pre', a = .newData d live data ∧ pre = pre' ++ [.response i head]

/-- Every payload a session writes is final. -/
def Session.BlockFinal (s : Session) : Prop := Before Act.Final s.trace

/-- The response is for one of the directions. -/
def ResponseHead.Directed (head : ResponseHead) : Prop :=
  ∃ d : Dir, DataType.ofCode head.type = some d.dataType

instance (head : ResponseHead) : Decidable head.Directed :=
  decidable_of_iff (DataType.ofCode head.type = some Dir.req.dataType ∨
      DataType.ofCode head.type = some Dir.res.dataType)
    ⟨fun h => h.elim (fun h => ⟨.req, h⟩) fun h => ⟨.res, h⟩,
      fun ⟨d, h⟩ => by cases d; exacts [.inl h, .inr h]⟩

/-- The response that a reader has read when it goes on. -/
def ReaderPc.read : ReaderPc → Option ResponseHead
  | readHead r =>
    if (ResponseHead.ofBytes r.got).newDataLen = 0 then some (ResponseHead.ofBytes r.got) else none
  | readBody head _ => some head
  | _ => none

/-- The new data of a block is being written. -/
def ReaderPc.Blocking : ReaderPc → Prop
  | writeNew _ _ head _ => head.act = Action.block.code
  | _ => False

/-- A reader that goes on to write new data or to release. -/
def ReaderPc.Starts : ReaderPc → Prop
  | writeNew _ _ head _ => head.act ≠ Action.block.code
  | readHead r => (ResponseHead.ofBytes r.got).newDataLen = 0 ∧
      (ResponseHead.ofBytes r.got).act ≠ Action.block.code ∧ (ResponseHead.ofBytes r.got).Directed
  | readBody head _ => head.Directed
  | _ => False

/-- The relay writes to the process. -/
def RelayPc.IsWriteProcess : RelayPc → Prop
  | writeProcess _ => True
  | _ => False

/-- The reader flushes towards the server. -/
def ReaderPc.IsFlushServer : ReaderPc → Prop
  | flushServer _ _ => True
  | _ => False

instance : ∀ pc : ReaderPc, Decidable pc.Blocking
  | .writeNew _ _ _ _ => inferInstanceAs (Decidable (_ = _))
  | .readHead _ | .readBody _ _ | .release _ _ _ _ | .flushServer _ _ | .flushClient _ _ | .done =>
    inferInstanceAs (Decidable False)

instance : ∀ pc : ReaderPc, Decidable pc.Starts
  | .writeNew _ _ _ _ => inferInstanceAs (Decidable (_ ≠ _))
  | .readHead _ => inferInstanceAs (Decidable (_ ∧ _ ∧ _))
  | .readBody head _ => inferInstanceAs (Decidable head.Directed)
  | .release _ _ _ _ | .flushServer _ _ | .flushClient _ _ | .done =>
    inferInstanceAs (Decidable False)

instance : ∀ pc : RelayPc, Decidable pc.IsWriteProcess
  | .writeProcess _ => inferInstanceAs (Decidable True)
  | .notify _ | .readDirect _ | .writeDirect _ | .readProcess _ | .flush _ _ | .done =>
    inferInstanceAs (Decidable False)

instance : ∀ pc : ReaderPc, Decidable pc.IsFlushServer
  | .flushServer _ _ => inferInstanceAs (Decidable True)
  | .readHead _ | .readBody _ _ | .writeNew _ _ _ _ | .release _ _ _ _ | .flushClient _ _ | .done =>
    inferInstanceAs (Decidable False)

/-- A reader writes the new data of a response that blocks. -/
def Session.Blocking (s : Session) : Prop := ∃ i < s.nReaders, (s.readers i).pc.Blocking

instance (s : Session) : Decidable s.Blocking := inferInstanceAs (Decidable (∃ _ < _, _))

/-- A response that blocks is for one of the directions. -/
def DirectsBlock (s : Session) : Event → Prop
  | .complete (.reader i) => ∀ head ∈ (s.readers i).pc.read, head.act = Action.block.code →
      head.Directed
  | _ => True

/-- No coroutine goes on to write payload. -/
def StartsNothing (s : Session) : Event → Prop
  | .read d (.data bytes) => (s.way d).relay.IsDirect → bytes = []
  | .fail (.relay d) => (s.way d).relay.IsWriteProcess → (s.way d).storedData = []
  | .fail (.reader i) => s.linkRead i ≠ none → ∀ d, (s.way d).storedData = []
  | .complete (.reader i) => ¬ (s.readers i).pc.Starts ∧
      ((s.readers i).pc.IsFlushServer → (s.way .res).storedData = [])
  | _ => True

instance (s : Session) : ∀ e, Decidable (DirectsBlock s e)
  | .complete (.reader i) => inferInstanceAs
    (Decidable (∀ head ∈ (s.readers i).pc.read, _ → head.Directed))
  | .complete (.relay _) | .complete (.connector _) | .complete (.detector _)
  | .read _ _ | .push _ _ | .pull _ _ | .issue _ | .fail _ | .connect _ | .expire _
  | .respond _ _ => inferInstanceAs (Decidable True)

instance (s : Session) : ∀ e, Decidable (StartsNothing s e)
  | .read _ (.data _) => inferInstanceAs (Decidable (_ → _))
  | .fail (.relay _) => inferInstanceAs (Decidable (_ → _))
  | .fail (.reader _) => inferInstanceAs (Decidable (_ → _))
  | .complete (.reader _) => inferInstanceAs (Decidable (_ ∧ _))
  | .complete (.relay _) | .complete (.connector _) | .complete (.detector _)
  | .fail (.connector _) | .fail (.detector _) | .read _ .eof | .read _ .error
  | .push _ _ | .pull _ _ | .issue _ | .connect _ | .expire _
  | .respond _ _ => inferInstanceAs (Decidable True)

/-- While the new data of a block is written, nothing else is started. -/
def HoldsBlock (s : Session) (e : Event) : Prop :=
  DirectsBlock s e ∧ (s.hasClosed = false → s.Blocking → StartsNothing s e)

instance (s : Session) (e : Event) : Decidable (HoldsBlock s e) :=
  inferInstanceAs (Decidable (_ ∧ (_ → _ → _)))

/-! ## A block ends the session -/

/-- The session is closed, or the new data of a block is being written. -/
def Ended (s : Session) : Prop := s.hasClosed = true ∨ s.Blocking

namespace Ended

variable {s s' : Session}

/-- A block that is being written is written on, or closes the session. -/
theorem step (h : Ended s) {e : Event} (hr : Rule s e s') : Ended s' := by
  rcases h with hc | ⟨i, hi, hb⟩
  · exact .inl (closed_of_rule hr hc)
  by_cases ht : e.tid = some (.reader i)
  · cases hpc : (s.readers i).pc with
    | writeNew d conn head w =>
      rw [hpc] at hb
      cases hr with
      | @pushPeer t k d' w' =>
        cases ht
        refine .inr ⟨i, hi, ?_⟩
        simpa [setPeerWrite, accept, setWay, hpc, ReaderPc.setPeerWrite, ReaderPc.Blocking] using hb
      | pushLink hw | issueWrite hw => cases ht; cases hw
      | pull hr | issueRead hr | readFailed hr =>
        cases ht
        simp [linkRead, hpc, ReaderPc.linkRead] at hr
      | wroteNew hpc' =>
        cases ht
        rw [hpc] at hpc'
        cases hpc'
        exact actOnHead_ind (fun _ => .inl (graceClose_hasClosed s)) fun ha => absurd hb ha
      | readerWriteFailed => exact .inl (graceClose_hasClosed s)
      | gotHead hpc' | gotHeadOnly hpc' | gotBody hpc' | released hpc' | flushedServer hpc'
        | flushServerFailed hpc' | flushedClient hpc' | flushClientFailed hpc' =>
        cases ht
        rw [hpc] at hpc'
        cases hpc'
      | respond => cases ht
      | _ => cases ht
    | _ => rw [hpc] at hb; exact hb.elim
  · exact .inr ⟨i, hi.trans_le (nReaders_of_rule hr), by rwa [reader_of_other hr hi ht]⟩

/-- A response that blocks closes the session, or its new data is written first. -/
theorem of_dispatch {i conn : ℕ} {head : ResponseHead} {buf : List Byte} (hi : i < s.nReaders)
    (hb : head.act = Action.block.code) (hd : head.Directed) :
    Ended (s.dispatch i conn head buf) := by
  obtain ⟨d, hd⟩ := hd
  have hin : ∀ s : Session, i < s.nReaders →
      Ended (s.innerProxy2clientOr2server i d conn head buf) := fun s hi =>
    innerProxy_ind (fun _ => .inr ⟨i, hi, by simp [ReaderPc.Blocking, hb]⟩) fun _ =>
      actOnHead_ind (fun _ => .inl (graceClose_hasClosed s)) fun hb' => absurd hb hb'
  unfold Session.dispatch
  cases d <;> rw [hd] <;> exact hin _ hi

end Ended

/-! ## Every run -/

/-- The invariants of a run in which blocks are held. -/
structure Held (s : Session) : Prop where
  shape : Shape s
  ended : ∀ i head, .response i head ∈ s.trace → head.act = Action.block.code → Ended s
  final : s.BlockFinal

theorem Session.Handles.read_eq {s : Session} {i conn : ℕ} {head : ResponseHead} {buf : List Byte}
    (h : s.Handles i conn head buf) : (s.readers i).pc.read = some head := by
  rcases h with ⟨r, hpc, -, rfl, hn, -⟩ | ⟨r, hpc, -⟩
  · rw [hpc]; simp [ReaderPc.read, hn]
  · rw [hpc]; rfl

/-- A reader that has read a directed response goes on to write. -/
theorem Session.Handles.starts {s : Session} {i conn : ℕ} {head : ResponseHead} {buf : List Byte}
    (h : s.Handles i conn head buf) (hd : head.Directed)
    (hb : head.newDataLen ≠ 0 ∨ head.act ≠ Action.block.code) : (s.readers i).pc.Starts := by
  rcases h with ⟨r, hpc, -, rfl, hn, -⟩ | ⟨r, hpc, -⟩
  · rw [hpc]; exact ⟨hn, hb.resolve_left fun hn' => hn' hn, hd⟩
  · rw [hpc]; exact hd

theorem Act.Silent.not_payload {a : Act} (h : a.Silent) : ¬ a.Payload := by
  cases a <;> first | exact id | exact h.elim

namespace Held

variable {s s' : Session}

/-- While the new data of a block is written, nothing that a step records is a
    write of payload. -/
theorem not_payload (hs : Shape s) (he : Ended s) {e : Event} {acts : List Act}
    (hH : HoldsBlock s e) (hem : s.Emits e acts) : ∀ a ∈ acts, ¬ a.Payload := by
  have hquiet : ∀ d, s.dstOpen d = true → StartsNothing s e := by
    intro d hd
    rw [hs.dst, Bool.not_eq_true'] at hd
    exact hH.2 hd (he.resolve_left (by simp [hd]))
  cases hem with
  | silent ha => exact fun a hm => (ha a hm).not_payload
  | @direct d live data hpc =>
    rintro a (_ | ⟨_, _ | ⟨_, h⟩⟩) hp
    · exact hp
    · exact hp.2 (hquiet d hp.1 (by rw [hpc]; trivial))
    · cases h
  | framed =>
    rintro a (_ | ⟨_, _ | ⟨_, h⟩⟩) hp
    · exact hp
    · exact hp
    · cases h
  | @flush d e acts ha hf hne =>
    intro a hm hp
    rcases List.mem_append.1 hm with hm | hm
    · exact (ha a hm).not_payload hp
    rw [List.mem_singleton.1 hm] at hp
    have hst := hquiet d hp.1
    cases e with
    | fail t =>
      cases t with
      | relay d' =>
        obtain ⟨rfl, w, hpc⟩ := hf
        exact hne (hst (by rw [hpc]; trivial))
      | reader i =>
        obtain ⟨r, hr⟩ := hf
        exact hne (hst (by simp [hr]) d)
      | _ => exact hf.elim
    | complete t =>
      cases t with
      | reader i =>
        obtain ⟨rfl, gen, w, hpc⟩ := hf
        exact hne (hst.2 (by rw [hpc]; trivial))
      | _ => exact hf.elim
    | _ => exact hf.elim
  | dead =>
    rintro a (_ | ⟨_, h⟩) hp
    · cases hp.1
    · cases h
  | response =>
    rintro a (_ | ⟨_, h⟩) hp
    · exact hp
    · cases h
  | @newData i conn head buf d hh ht hn =>
    rintro a (_ | ⟨_, _ | ⟨_, h⟩⟩) hp
    · exact hp
    · exact (hquiet d hp.1).1 (hh.starts ⟨d, ht⟩ (.inl hn))
    · cases h
  | @pass i conn head buf d hh ht hn hb =>
    rintro a (_ | ⟨_, _ | ⟨_, h⟩⟩) hp
    · exact hp
    · exact (hquiet d hp.1).1 (hh.starts ⟨d, ht⟩ (.inr hb))
    · cases h
  | @passNew i d conn head w hpc hb =>
    rintro a (_ | ⟨_, h⟩) hp
    · exact (hquiet d hp.1).1 (by rw [hpc]; exact hb)
    · cases h

/-- What a step records is final, whether or not a block was read before. -/
theorem final_of_emits (h : Held s) {e : Event} {acts : List Act} (hH : HoldsBlock s e)
    (hem : s.Emits e acts) : Before (fun pre a => Act.Final (s.trace ++ pre) a) acts := by
  by_cases hblock : ∃ i head, Act.response i head ∈ s.trace ∧ head.act = Action.block.code
  · obtain ⟨i, head, hm, hb⟩ := hblock
    exact before_of_forall fun a ha _ hp =>
      absurd hp (not_payload h.shape (h.ended i head hm hb) hH hem a ha)
  -- the first block of the session can only be recorded by this step
  have hnone : ∀ {i head}, Act.response i head ∈ s.trace → head.act ≠ Action.block.code :=
    fun hm hb => hblock ⟨_, _, hm, hb⟩
  have hno : (∀ a ∈ acts, ∀ i head, a ≠ .response i head) →
      Before (fun pre a => Act.Final (s.trace ++ pre) a) acts := by
    intro hr pre a post heq hp i head hm hb
    rcases List.mem_append.1 hm with hm | hm
    · exact absurd hb (hnone hm)
    · exact absurd rfl (hr _ (by rw [heq]; simp [hm]) i head)
  cases hem with
  | silent ha =>
    refine hno fun a hm i head heq => ?_
    subst heq; exact ha _ hm
  | direct => exact hno (by simp)
  | framed => exact hno (by simp)
  | flush ha =>
    refine hno fun a hm i head heq => ?_
    subst heq
    rcases List.mem_append.1 hm with hm | hm
    · exact ha _ hm
    · simp at hm
  | dead => exact hno (by simp)
  | response =>
    simp only [before_cons, before_nil, and_true]
    exact fun hp => hp.elim
  | @newData i conn head buf d hh ht hn =>
    simp only [before_cons, before_nil, and_true]
    refine ⟨fun hp => hp.elim, fun _ i' head' hm hb => ?_⟩
    rcases List.mem_append.1 hm with hm | hm
    · exact absurd hb (hnone hm)
    · rw [List.mem_singleton.1 hm]
      exact ⟨_, _, _, s.trace, rfl, rfl⟩
  | @pass i conn head buf d hh ht hn hb =>
    simp only [before_cons, before_nil, and_true]
    refine ⟨fun hp => hp.elim, fun _ i' head' hm hb' => ?_⟩
    rcases List.mem_append.1 hm with hm | hm
    · exact absurd hb' (hnone hm)
    · cases List.mem_singleton.1 hm
      exact absurd hb' hb
  | passNew => exact hno (by simp [releaseAct])

theorem step (h : Held s) {e : Event} (hH : HoldsBlock s e) (hr : Rule s e s') : Held s' := by
  obtain ⟨acts, hem, ht⟩ := records_of_rule h.shape hr
  refine ⟨h.shape.step hr, fun i head hm hb => ?_, ?_⟩
  · rw [ht] at hm
    rcases List.mem_append.1 hm with hm | hm
    · exact (h.ended i head hm hb).step hr
    · obtain ⟨rfl, conn, buf, hh⟩ := hem.handles hm
      rw [hh.dispatch hr]
      refine Ended.of_dispatch (h.shape.reader_lt ?_) hb (hH.1 head hh.read_eq hb)
      rcases hh with ⟨r, hpc, -⟩ | ⟨r, hpc, -⟩ <;> simp [hpc]
  · rw [BlockFinal, ht]
    exact h.final.append (h.final_of_emits hH hem)

theorem init (c : Conf) : Held (Session.init c) := by
  refine ⟨Shape.init c, fun i head hm => ?_, ?_⟩
  · rw [trace_init] at hm; simp at hm
  · rw [BlockFinal, trace_init]
    simp [Act.Final, Act.Payload]

end Held

/-- **A block is final** when nothing is started while its new data is written. -/
theorem blockFinal_of_holdsBlock {c : Conf} {s : Session}
    (h : Reach Session.step HoldsBlock (Session.init c) s) : s.BlockFinal := by
  have hi : Held s := h.inv (I := Held) (Held.init c) fun _ _ _ hs hC he =>
    hs.step hC (rule_of_step he)
  exact hi.final

/-- The process blocks with a byte of new data for the server: it is written, and
    the session closes. -/
theorem blockFinal_written : ∃ s : Session, s.hasClosed = true ∧ (s.way .req).accepted = [1, 9] ∧
    s.BlockFinal := by
  obtain ⟨s, hs, hp⟩ := exists_runIf Session.step HoldsBlock
    (Session.init (localConf true))
    (firstUp ++ [
      .respond 1 ⟨{ type := 0, act := 1, newDataLen := 1, handledTotalPkgLen := 0 }, [9], rfl⟩,
      .pull 0 16, .complete (.reader 0), .pull 0 1, .complete (.reader 0), .push (.reader 0) 1,
      .complete (.reader 0), .read .res .error])
    (fun s => s.hasClosed && (s.way .req).accepted == [1, 9]) (by decide +kernel)
  simp only [Bool.and_eq_true, beq_iff_eq] at hp
  exact ⟨s, hp.1, hp.2, blockFinal_of_holdsBlock hs⟩

/-- While the new data of the block is written, the server answers and its bytes
    go to the client. -/
theorem not_blockFinal : ¬ ∀ (c : Conf) (s : Session),
    Reach Session.step (fun _ _ => True) (Session.init c) s → s.BlockFinal := by
  intro h
  obtain ⟨s, hs, hp⟩ := exists_run Session.step (fun _ _ => True)
    (Session.init (localConf true))
    (firstUp ++ [
      .respond 1 ⟨{ type := 0, act := 1, newDataLen := 1, handledTotalPkgLen := 0 }, [9], rfl⟩,
      .pull 0 16, .complete (.reader 0), .pull 0 1, .complete (.reader 0), .read .res (.data [7])])
    (fun s => s.trace.drop 3 == [.response 0
      { type := 0, act := 1, newDataLen := 1, handledTotalPkgLen := 0 }, .newData .req true [9],
        .got .res false [7], .direct .res true [7]])
    (fun _ _ _ => trivial) (by decide +kernel)
  rw [beq_iff_eq] at hp
  have hsplit : s.trace = (s.trace.take 3 ++ (s.trace.drop 3).take 3) ++ [.direct .res true [7]] := by
    conv_lhs => rw [← List.take_append_drop 3 s.trace, hp]
    simp [hp]
  have hfin := h _ s hs _ _ _ hsplit ⟨rfl, by simp⟩ 0
    { type := 0, act := 1, newDataLen := 1, handledTotalPkgLen := 0 } (by simp [hp]) rfl
  simp at hfin

end CppProxy
