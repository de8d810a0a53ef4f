/-
  cpp_proxy — what the steps record.

  The trace of a session is appended to at few places, so a property of traces
  is a case analysis on `Emits`, the entries that a step adds.

  * `Emits`, `records_of_rule`: every step adds entries of one of these forms;
  * `Later`, `Later.of_rule`: connections and their frames are only added to.
-/
import CppProxy.Edits
import CppProxy.Shape

namespace CppProxy

open Session

/-- A read for the direct path is pending. -/
def RelayPc.IsDirect : RelayPc → Prop
  | readDirect _ => True
  | _ => False

instance : ∀ pc : RelayPc, Decidable pc.IsDirect
  | .readDirect _ => inferInstanceAs (Decidable True)
  | .notify _ | .writeDirect _ | .readProcess _ | .writeProcess _ | .flush _ _ | .done =>
    inferInstanceAs (Decidable False)

/-- An entry that is neither a read of data, a response nor a write. -/
def Act.Silent : Act → Prop
  | eof _ _ _ | flushed _ _ _ | reconnect _ _ => True
  | _ => False

/-- `s'` recorded silent entries only. -/
def Session.Quiet (s s' : Session) : Prop :=
  ∃ acts, (∀ a ∈ acts, a.Silent) ∧ s'.trace = s.trace ++ acts

/-- The steps that may flush the queue of direction `d`. -/
def Session.Flushes (s : Session) (d : Dir) : Event → Prop
  | .fail (.relay d') => d' = d ∧ ∃ w, (s.way d).relay = .writeProcess w
  | .fail (.reader i) => ∃ r, s.linkRead i = some r
  | .complete (.reader i) => d = .res ∧ ∃ gen w, (s.readers i).pc = .flushServer gen w
  | _ => False

/-- Reader `i` has read a response, the last byte from connection `conn`. -/
def Session.Handles (s : Session) (i conn : ℕ) (head : ResponseHead) (buf : List Byte) : Prop :=
  (∃ r, (s.readers i).pc = .readHead r ∧ r.Finished ∧ head = ResponseHead.ofBytes r.got ∧
    head.newDataLen = 0 ∧ conn = r.gen ∧ buf = []) ∨
  ∃ r, (s.readers i).pc = .readBody head r ∧ r.Finished ∧ conn = r.gen ∧ buf = r.got

/-- The release that `head` starts in direction `d`. -/
def Session.releaseAct (s : Session) (d : Dir) (conn : ℕ) (head : ResponseHead) : Act :=
  let r := prepareTransferPacket head (s.way d).storedData (s.way d).handledTotalPkgLen
  .release d (s.dstOpen d) conn head.handledTotalPkgLen (s.way d).handledTotalPkgLen
    r.handledTotalPkgLen r.nextPkgUsedSize r.bytes

/-- What a step from `s` records. -/
inductive Session.Emits (s : Session) : Event → List Act → Prop
  | silent {e acts} (h : ∀ a ∈ acts, a.Silent) : Emits s e acts
  | direct {d live data} (hpc : (s.way d).relay = .readDirect live) :
      Emits s (.read d (.data data)) [.got d s.bypass data, .direct d (s.dstOpen d) data]
  | framed {d live data} (hpc : (s.way d).relay = .readProcess live) :
      Emits s (.read d (.data data)) [.got d s.bypass data, .frame d data]
  | flush {d e l} (h : ∀ a ∈ l, a.Silent) (hf : s.Flushes d e)
      (hne : (s.way d).storedData ≠ []) :
      Emits s e (l ++ [.flush d (s.dstOpen d) (storedBytes (s.way d).storedData)])
  | dead {d e data} : Emits s e [.flush d false data]
  | response {i conn head buf} (hh : s.Handles i conn head buf) :
      Emits s (.complete (.reader i)) [.response i head]
  | newData {i conn head buf d} (hh : s.Handles i conn head buf)
      (ht : DataType.ofCode head.type = some d.dataType) (hn : head.newDataLen ≠ 0) :
      Emits s (.complete (.reader i)) [.response i head, .newData d (s.dstOpen d) buf]
  | pass {i conn head buf d} (hh : s.Handles i conn head buf)
      (ht : DataType.ofCode head.type = some d.dataType) (hn : head.newDataLen = 0)
      (hb : head.act ≠ Action.block.code) :
      Emits s (.complete (.reader i)) [.response i head, s.releaseAct d conn head]
  | passNew {i d conn head w} (hpc : (s.readers i).pc = .writeNew d conn head w)
      (hb : head.act ≠ Action.block.code) :
      Emits s (.complete (.reader i)) [s.releaseAct d conn head]

/-- The step from `s` to `s'` by `e` records entries of these forms. -/
def Session.Records (s : Session) (e : Event) (s' : Session) : Prop :=
  ∃ acts, s.Emits e acts ∧ s'.trace = s.trace ++ acts

namespace Session

variable {s s' s'' : Session}

theorem Quiet.of_eq (h : s'.trace = s.trace) : Quiet s s' := ⟨[], by simp, by simpa using h⟩

theorem Quiet.trans (h : Quiet s s') (h' : Quiet s' s'') : Quiet s s'' := by
  obtain ⟨acts, ha, ht⟩ := h
  obtain ⟨acts', ha', ht'⟩ := h'
  refine ⟨acts ++ acts', fun a hm => ?_, by rw [ht', ht, List.append_assoc]⟩
  exact (List.mem_append.1 hm).elim (ha a) (ha' a)

theorem Quiet.records (h : Quiet s s') (e : Event) : s.Records e s' :=
  h.imp fun _ h => ⟨.silent h.1, h.2⟩

@[simp] theorem graceClose_trace (s : Session) : s.graceClose.trace = s.trace :=
  graceClose_ind (P := fun s' => s'.trace = s.trace) (fun _ => rfl) fun _ => rfl

@[simp] theorem noteRead_trace (s : Session) (i : ℕ) : (s.noteRead i).trace = s.trace :=
  noteRead_ind (P := fun s' => s'.trace = s.trace) (fun _ => rfl) fun _ => rfl

@[simp] theorem breakLink_trace (s : Session) (w : LinkWrite) : (s.breakLink w).trace = s.trace :=
  breakLink_ind (P := fun s' => s'.trace = s.trace) (fun _ => rfl) fun _ => rfl

@[simp] theorem relayLoop_trace (s : Session) (d : Dir) : (s.relayLoop d).trace = s.trace :=
  relayLoop_ind (P := fun s' => s'.trace = s.trace) (fun _ => graceClose_trace s) (fun _ _ => rfl)
    (fun _ _ _ _ => rfl) fun _ _ _ => rfl

@[simp] theorem readHead_trace (s : Session) (i : ℕ) : (s.readHead i).trace = s.trace :=
  noteRead_trace s i

theorem Quiet.connectProcess (h : Quiet s s') (gen : ℕ) : Quiet s (s'.connectProcess gen) :=
  h.trans (connectProcess_ind (fun _ => .of_eq rfl) fun _ =>
    ⟨[.reconnect gen s'.conns], by simp [Act.Silent], rfl⟩)

theorem Quiet.relayReconnect {x : Session} (h : Quiet s x) (d : Dir) (gen : ℕ) :
    Quiet s (x.relayReconnect d gen) :=
  (h.connectProcess gen).trans (.of_eq (relayLoop_trace _ d))

theorem Quiet.readerReconnect {x : Session} (h : Quiet s x) (i gen : ℕ) : Quiet s (x.readerReconnect i gen) :=
  h.connectProcess gen

theorem quiet_clearFlushed (s : Session) (d : Dir) (w : PeerWrite) :
    Quiet s (s.clearFlushed d w) :=
  ⟨[_], by simp [Act.Silent], rfl⟩

/-- The flush of a queue, or nothing. -/
theorem records_relayFlush {d : Dir} {w : LinkWrite} (gen : ℕ)
    (hpc : (s.way d).relay = .writeProcess w) (ht : s'.trace = s.trace)
    (hw : s'.way d = s.way d) (ho : s'.dstOpen d = s.dstOpen d) :
    s.Records (.fail (.relay d)) (s'.relayFlush d gen) := by
  refine relayFlush_ind (fun _ => ?_) fun hne => ?_
  · exact (Quiet.relayReconnect (s := s) (x := { s' with bypass := true }) (.of_eq ht) d gen).records _
  · rw [hw] at hne ⊢
    rw [ho]
    exact ⟨[_], .flush (l := []) (by simp) ⟨rfl, w, hpc⟩ hne, congrArg (· ++ _) ht⟩

/-- The queue of the server is flushed after silent entries. -/
theorem records_readerFlushClient {e : Event} (i gen : ℕ) (hq : Quiet s s')
    (hf : s.Flushes .res e) (hw : s'.way .res = s.way .res)
    (ho : s'.dstOpen .res = s.dstOpen .res) : s.Records e (s'.readerFlushClient i gen) := by
  refine readerFlushClient_ind (fun _ => ?_) fun hne => ?_
  · exact (Quiet.readerReconnect (s := s) (x := { s' with bypass := true }) hq i gen).records _
  · obtain ⟨acts, ha, ht⟩ := hq
    rw [hw] at hne ⊢
    rw [ho]
    exact ⟨_, .flush ha hf hne, (congrArg (· ++ _) ht).trans (List.append_assoc _ _ _)⟩

theorem records_readerFlushServer {i : ℕ} {r : LinkRead} (gen : ℕ) (hr : s.linkRead i = some r) :
    s.Records (.fail (.reader i)) (s.readerFlushServer i gen) :=
  readerFlushServer_ind (fun _ => records_readerFlushClient i gen (.of_eq rfl) ⟨r, hr⟩ rfl rfl)
    fun hne => ⟨[_], .flush (l := []) (by simp) ⟨r, hr⟩ hne, rfl⟩

/-- A response that a reader has read is recorded, and what it starts. -/
theorem records_dispatch {i conn : ℕ} {head : ResponseHead} {buf : List Byte}
    (hh : s.Handles i conn head buf) :
    s.Records (.complete (.reader i)) (s.dispatch i conn head buf) := by
  refine dispatch_ind (fun d ht => innerProxy_ind (fun hn => ?_) fun hn => actOnHead_ind
    (fun hb => ?_) fun hb => ?_) ⟨_, .response hh, readHead_trace _ i⟩
      ⟨_, .response hh, readHead_trace _ i⟩
  · exact ⟨_, .newData hh ht hn, by simp [Session.emit, Session.setReader, dstOpen]⟩
  · exact ⟨_, .response hh, graceClose_trace _⟩
  · refine ⟨_, .pass hh ht hn hb, ?_⟩
    simp only [Session.releasing, Session.emit, List.append_assoc, List.cons_append,
      List.nil_append]
    rfl

/-- **Every step records entries of these forms.** -/
theorem records_of_rule (hs : Shape s) {e : Event} (hr : Rule s e s') : s.Records e s' := by
  have hquiet : ∀ {s'}, s'.trace = s.trace → s.Records e s' := fun h => (Quiet.of_eq h).records e
  cases hr with
  | @gotDirect d live bytes hpc => exact ⟨_, .direct hpc, by rw [writeDirect_eq]⟩
  | @gotProcess d live bytes hpc => exact ⟨_, .framed hpc, by rw [writeProcess_eq]⟩
  | @readEof d =>
    exact ⟨[.eof d (s.way d).received (s.way d).accepted], .silent (by simp [Act.Silent]), by
      rw [relayEof_eq]; exact graceClose_trace _⟩
  | readError => exact hquiet (graceClose_trace s)
  | @pushPeer t => exact hquiet (by cases t <;> rfl)
  | @pushLink t => exact hquiet (by cases t <;> rfl)
  | pull => exact hquiet rfl
  | @issueWrite t => exact hquiet (by cases t <;> rfl)
  | issueRead => exact hquiet (noteRead_trace s _)
  | notified => exact hquiet rfl
  | @notifyFailed d w => exact hquiet (breakLink_trace s w)
  | wroteDirect => exact hquiet (relayLoop_trace s _)
  | wroteProcess => exact hquiet (relayLoop_trace s _)
  | @processFailed d w hpc =>
    refine records_relayFlush w.gen hpc (breakLink_trace s w) (by rw [breakLink_way]) ?_
    exact breakLink_ind (P := fun s' => s'.dstOpen d = s.dstOpen d) (fun _ => by cases d <;> rfl)
      fun _ => rfl
  | relayFlushed => exact ((quiet_clearFlushed s _ _).relayReconnect _ _).records _
  | relayWriteFailed => exact hquiet (graceClose_trace s)
  | gotHead => exact hquiet (noteRead_trace s _)
  | gotHeadOnly hpc hf hb => exact records_dispatch (.inl ⟨_, hpc, hf, rfl, hb, rfl, rfl⟩)
  | gotBody hpc hf => exact records_dispatch (.inr ⟨_, hpc, hf, rfl, rfl⟩)
  | readFailed hr => exact readerFailed_ind (fun _ => hquiet rfl) fun _ => records_readerFlushServer _ hr
  | wroteNew hpc =>
    exact actOnHead_ind (fun _ => hquiet (graceClose_trace s)) fun hb => ⟨_, .passNew hpc hb, rfl⟩
  | @released i =>
    exact clearReleased_ind (fun _ _ => hquiet (readHead_trace _ i)) fun _ => hquiet (readHead_trace _ i)
  | readerWriteFailed => exact hquiet (graceClose_trace s)
  | @flushedServer i gen w hpc =>
    exact records_readerFlushClient i gen (quiet_clearFlushed s .req w) ⟨rfl, gen, w, hpc⟩
      (by simp [Session.clearFlushed, setStored]) rfl
  | @flushServerFailed i gen w hpc =>
    refine readerFlushClient_ind (fun _ => ?_) fun _ => ?_
    · exact (Quiet.readerReconnect (s := s) (x := { s.graceClose with bypass := true })
        (.of_eq (graceClose_trace s)) i gen).records _
    · -- the session is closed by now
      have hd : s.graceClose.dstOpen .res = false := by
        rw [hs.graceClose.dst, graceClose_hasClosed]; rfl
      rw [hd]
      exact ⟨[_], .dead, congrArg (· ++ _) (graceClose_trace s)⟩
  | flushedClient => exact ((quiet_clearFlushed s _ _).readerReconnect _ _).records _
  | flushClientFailed =>
    exact (Quiet.readerReconnect (.of_eq (graceClose_trace s)) _ _).records _
  | connected => exact hquiet rfl
  | connectFailed => exact hquiet rfl
  | retry => exact connectLoop_ind (fun _ => hquiet rfl) fun _ => hquiet rfl
  | @wroteTuple j conn w =>
    obtain ⟨ds, n, hd⟩ := s.superviseProcess_detectors j conn
    rw [hd]
    exact hquiet (readHead_trace _ _)
  | @tupleFailed j conn w => exact hquiet (breakLink_trace s w)
  | timedOut => exact hquiet rfl
  | @rearm k conn =>
    obtain ⟨ds, hd⟩ := s.detectLoop_detectors k conn
    rw [hd]
    exact hquiet rfl
  | connect => exact hquiet rfl
  | expire => exact hquiet rfl
  | respond => exact hquiet rfl

theorem trace_init (c : Conf) : (Session.init c).trace = [.reconnect 0 0] :=
  (relayLoop_trace _ .res).trans ((relayLoop_trace _ .req).trans rfl)

/-- A response is recorded by the step that handles it. -/
theorem Emits.handles {e : Event} {acts : List Act} (hem : s.Emits e acts) {i : ℕ}
    {head : ResponseHead} (hm : Act.response i head ∈ acts) :
    e = .complete (.reader i) ∧ ∃ conn buf, s.Handles i conn head buf := by
  cases hem with
  | silent ha => exact (ha _ hm).elim
  | direct => simp at hm
  | framed => simp at hm
  | flush ha =>
    rcases List.mem_append.1 hm with hm | hm
    · exact (ha _ hm).elim
    · simp at hm
  | dead => simp at hm
  | response hh =>
    simp only [List.mem_singleton, Act.response.injEq] at hm
    obtain ⟨rfl, rfl⟩ := hm
    exact ⟨rfl, _, _, hh⟩
  | newData hh =>
    simp only [List.mem_cons, Act.response.injEq, List.not_mem_nil, or_false, reduceCtorEq] at hm
    obtain ⟨rfl, rfl⟩ := hm
    exact ⟨rfl, _, _, hh⟩
  | pass hh =>
    simp only [releaseAct, List.mem_cons, Act.response.injEq, List.not_mem_nil, or_false,
      reduceCtorEq] at hm
    obtain ⟨rfl, rfl⟩ := hm
    exact ⟨rfl, _, _, hh⟩
  | passNew => simp [releaseAct] at hm

/-- A reader that has read a response acts on it. -/
theorem Handles.dispatch {i conn : ℕ} {head : ResponseHead} {buf : List Byte}
    (hh : s.Handles i conn head buf) (hr : Rule s (.complete (.reader i)) s') :
    s' = s.dispatch i conn head buf := by
  rcases hh with ⟨r, hpc, -, rfl, hn, rfl, rfl⟩ | ⟨r, hpc, -, rfl, rfl⟩ <;> cases hr <;>
    rename_i hpc' _ <;> simp_all

end Session

/-! ## Connections are added to -/

/-- Connections are only added, and so are the frames of a connection. -/
structure Later (s s' : Session) : Prop where
  conns : s.conns ≤ s'.conns
  frames : ∀ g ≤ s.conns, ∀ d, (s.links g).frames d <+: (s'.links g).frames d

namespace Later

variable {s s' : Session}

theorem of_same {x : Session} (hl : x.links = s.links) (hc : x.conns = s.conns) : Later s x :=
  ⟨hc.ge, fun g _ d => by simp only [hl, List.prefix_rfl]⟩

/-- The frames of one connection are added to. -/
theorem setLinks {x : Session} (hc : x.conns = s.conns) {g : ℕ} {l : Link}
    (hl : x.links = Function.update s.links g l)
    (hf : ∀ d, (s.links g).frames d <+: l.frames d) : Later s x := by
  refine ⟨hc.ge, fun g' _ d => ?_⟩
  rw [hl]
  by_cases hg : g' = g
  · subst hg
    rw [Function.update_self]; exact hf d
  · simp only [Function.update_of_ne hg, List.prefix_rfl]

/-- **Every step only adds** connections and frames. -/
theorem of_rule {e : Event} (hr : Rule s e s') : Later s s' := by
  have hcode : ∀ {t x}, Edits t x s' → x.links = s.links → x.conns = s.conns → Later s s' :=
    fun h hl hc => ⟨(h.same.conns.trans hc).ge, fun g _ d => by
      simp only [h.same.frames, hl, List.prefix_rfl]⟩
  cases updated_of_rule hr with
  | code _ _ h | readEof h | overrun _ _ h | flushed _ _ h | cleared _ _ h => exact hcode h rfl rfl
  | gotDirect => rw [writeDirect_eq]; exact of_same rfl rfl
  | @gotProcess d live bytes =>
    rw [writeProcess_eq]
    refine ⟨le_rfl, fun g _ d' => ?_⟩
    simp only [framed]
    split
    · by_cases hg : g = s.conns
      · subst hg
        by_cases hd : d' = d
        · subst hd; simp [link]
        · simp [hd, link]
      · simp [hg]
    · exact List.prefix_rfl
  | @pushPeer t => cases t <;> exact of_same rfl rfl
  | @pushLink t => cases t <;> exact setLinks rfl rfl fun _ => List.prefix_rfl
  | pull => exact setLinks rfl rfl fun _ => List.prefix_rfl
  | release h₁ _ h =>
    obtain ⟨-, rfl⟩ := h
    rcases h₁ with rfl | rfl <;> exact of_same rfl rfl
  | connected => exact of_same rfl rfl
  | connect =>
    refine ⟨Nat.le_succ _, fun g hg d => ?_⟩
    have : g ≠ s.conns + 1 := by omega
    simp [this]
  | respond => exact setLinks rfl rfl fun _ => List.prefix_rfl

end Later

end CppProxy
