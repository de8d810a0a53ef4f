/-
  cpp_proxy — a session that is served.

  While the connection lasts and the process parses the four tuple, the process goes
  on answering, and an open session is closed by its peers only.

  * `System.Serves`: the connection lasts, and the process parses the four tuple;
  * `Undisturbed`: besides, nothing more is read, no operation fails and no heartbeat is
    due;
  * `IntactAndCounted.open_of_rule`: what leaves a session open;
  * `System.Served`, `Served.step`: in an open session nobody waits in vain, and its
    process answers.
-/
import CppProxy.NoVainWait

namespace CppProxy

open Session Runs

/-! ## Guards -/

/-- The process parses the four tuple. -/
def SystemEvent.Accepts : SystemEvent → Prop
  | process _ (.readDone parses) => parses = true
  | _ => True

/-- More to do: bytes, an end or an error of a peer, a failure, or a heartbeat. -/
def SystemEvent.Disturbs : SystemEvent → Prop
  | proxy (.read _ _) | proxy (.fail _) | process _ .tick => True
  | _ => False

instance : ∀ e : SystemEvent, Decidable e.Accepts
  | .process _ (.readDone _) => inferInstanceAs (Decidable (_ = _))
  | .proxy _ | .process _ (.pull _) | .process _ (.readEof _ _) | .process _ .readError
  | .process _ .tick | .process _ .cancelled | .process _ (.push _ _) | .process _ (.wrote _)
  | .process _ (.writeFailed _) => inferInstanceAs (Decidable True)

instance : ∀ e : SystemEvent, Decidable e.Disturbs
  | .proxy (.read _ _) | .proxy (.fail _) | .process _ .tick => inferInstanceAs (Decidable True)
  | .proxy (.push _ _) | .proxy (.pull _ _) | .proxy (.issue _) | .proxy (.complete _)
  | .proxy (.connect _) | .proxy (.expire _) | .proxy (.respond _ _) | .process _ (.pull _)
  | .process _ (.readDone _) | .process _ (.readEof _ _) | .process _ .readError
  | .process _ .cancelled | .process _ (.push _ _) | .process _ (.wrote _)
  | .process _ (.writeFailed _) => inferInstanceAs (Decidable False)

namespace System

/-- The connection lasts, and the process parses the four tuple. -/
def Serves (y : System) (e : SystemEvent) : Prop := KeepsApartShort y e ∧ e.Accepts

/-- Nothing more is read, no operation fails, and no heartbeat is due. -/
def Undisturbed (y : System) (e : SystemEvent) : Prop := Serves y e ∧ ¬ e.Disturbs

instance (y : System) (e : SystemEvent) : Decidable (Serves y e) :=
  inferInstanceAs (Decidable (_ ∧ _))
instance (y : System) (e : SystemEvent) : Decidable (Undisturbed y e) :=
  inferInstanceAs (Decidable (_ ∧ _))

end System

/-- What does not disturb costs nothing. -/
theorem SystemEvent.cost_eq_zero {e : SystemEvent} (h : ¬ e.Disturbs) : e.cost = 0 := by
  cases e with
  | proxy e =>
    cases e with
    | read | fail => exact absurd trivial h
    | _ => rfl
  | process g e =>
    cases e with
    | tick => exact absurd trivial h
    | _ => rfl

/-! ## What leaves a session open -/

theorem relayLoop_open {s : Session} (ho : s.hasClosed = false) (he : s.eof = false) (d : Dir) :
    (s.relayLoop d).hasClosed = false :=
  relayLoop_ind (P := fun s' => s'.hasClosed = false) (fun h => by rw [he] at h; cases h)
    (fun _ _ => ho) (fun _ _ _ _ => ho) fun _ _ _ => ho

theorem dispatch_open {s : Session} (ho : s.hasClosed = false) (i conn : ℕ) {head : ResponseHead}
    (hb : head.act ≠ Action.block.code) (buf : List Byte) :
    (s.dispatch i conn head buf).hasClosed = false := by
  have hread : ∀ x : Session, x.hasClosed = false → (x.readHead i).hasClosed = false :=
    fun x hx => (noteRead_hasClosed x i).trans hx
  exact dispatch_ind (P := fun s' => s'.hasClosed = false)
    (fun d _ => innerProxy_ind (P := fun s' => s'.hasClosed = false) (fun _ => ho)
      fun _ => actOnHead_ind (P := fun s' => s'.hasClosed = false) (fun h => absurd h hb)
        fun _ => ho)
    (hread _ ho) (hread _ ho)

namespace IntactAndCounted

variable {s s' : Session}

/-- The head that is read is that of a response of the connection. -/
theorem head_mem (h : IntactAndCounted s) (ho : s.hasClosed = false) {r : LinkRead}
    (hpc : (s.readers 0).pc = .readHead r) (hf : r.Finished) :
    ∃ resp ∈ s.link.responses, ResponseHead.ofBytes r.got = resp.head := by
  have hc := h.counted ho
  obtain ⟨pending, hsuf, haw, -⟩ := hc.answers.reader 0
    (hc.one.owns_of_serving hc.shape (by rw [hpc]; exact hf.1))
  rw [hpc] at haw
  obtain ⟨resp, rest, rfl, hg, -⟩ := head_of_encode haw.2 (hf.2.trans haw.1)
  exact ⟨resp, hsuf.subset (by simp), by rw [hg, ResponseHead.ofBytes_bytes]⟩

/-- **An open session is closed** by an end or an error of a peer, by a failed write, or
    by the process. -/
theorem open_of_rule (h : IntactAndCounted s) (ho : s.hasClosed = false) (heof : s.eof = false)
    (hpass : ∀ r ∈ s.link.responses, r.head.act ≠ Action.block.code) {e : Event}
    (hC : KeepsConnection s e) (hread : ∀ d r, e ≠ .read d r) (hfail : ∀ t, e ≠ .fail t)
    (hr : Rule s e s') :
    s'.hasClosed = false := by
  have ht := h.oneConnection ho
  have hpc : ∀ i, (s.readers i).pc ≠ .done → i = 0 ∧ ((∃ r, (s.readers 0).pc = .readHead r) ∨
      ∃ d count next w, (s.readers 0).pc = .release d count next w) := fun i => h.reader_pc ho
  have hnone : ∀ {i pc}, (s.readers i).pc = pc → pc ≠ .done → (∀ r, pc ≠ .readHead r) →
      (∀ d count next w, pc ≠ .release d count next w) → s'.hasClosed = false := by
    rintro i pc hi hd hr hrel
    obtain ⟨rfl, ⟨r, hp⟩ | ⟨d, count, next, w, hp⟩⟩ := hpc i (hi ▸ hd)
    · exact absurd (hi.symm.trans hp) (hr r)
    · exact absurd (hi.symm.trans hp) (hrel d count next w)
  cases hr with
  | gotDirect | gotProcess | readEof | readError => exact absurd rfl (hread _ _)
  | relayWriteFailed | notifyFailed | processFailed | readFailed | readerWriteFailed
  | flushServerFailed | flushClientFailed | connectFailed | tupleFailed =>
    exact absurd rfl (hfail _)
  | @pushPeer t | @pushLink t | @issueWrite t => cases t <;> exact ho
  | issueRead => exact (noteRead_hasClosed s _).trans ho
  | wroteDirect | wroteProcess => exact relayLoop_open ho heof _
  | @relayFlushed d gen w hpc => exact absurd (by rw [hpc]; trivial) (ht.noFlush.1 d)
  | @gotHead i r hpc' hf hb =>
    exact absurd (ht.noNewData (h.counted ho) hpc' hf) hb
  | @gotHeadOnly i r hpc' hf hb =>
    obtain rfl := (hpc i (by rw [hpc']; simp)).1
    obtain ⟨resp, hresp, hhead⟩ := h.head_mem ho hpc' hf
    exact dispatch_open ho 0 _ (by rw [hhead]; exact hpass resp hresp) _
  | gotBody hpc' | wroteNew hpc' | flushedServer hpc' | flushedClient hpc' =>
    exact hnone hpc' (by simp) (by simp) (by simp)
  | @released i d count next =>
    have hclear : ∀ x : Session, x.hasClosed = false → (x.readHead i).hasClosed = false :=
      fun x hx => (noteRead_hasClosed x i).trans hx
    exact clearReleased_ind (P := fun s' => s'.hasClosed = false) (fun _ _ => hclear _ ho)
      fun _ => hclear { s with undefined := true } ho
  | retry =>
    exact connectLoop_ind (P := fun s' => s'.hasClosed = false) (fun _ => ho) fun _ => ho
  | @wroteTuple j conn =>
    obtain ⟨ds, n, hd⟩ := s.superviseProcess_detectors j conn
    rw [hd]
    exact (noteRead_hasClosed (s.spawning j conn) _).trans ho
  | @timedOut k conn hpc =>
    have := hC ho
    rw [hpc] at this
    exact absurd trivial this
  | @rearm k conn =>
    obtain ⟨ds, hd⟩ := s.detectLoop_detectors k conn
    rw [hd]
    exact ho
  | pull | notified | connected | connect | expire | respond => exact ho

end IntactAndCounted

namespace System

variable {y y' : System}

/-- The process of an open session does not meet the end of its stream. -/
theorem Working.not_readEof (h : y.Working) (ho : y.proxy.hasClosed = false)
    (h0 : 0 < y.proxy.conns) {e : ProcessEvent} (ha : y.Arrives y.proxy.conns e) :
    ∀ garbage parses, e ≠ .readEof garbage parses := by
  rintro garbage parses rfl
  have ht := h.sound.intact.oneConnection ho
  have hup : y.proxy.proxyProcessSocket = .connected := by
    refine ht.up fun hd => ?_
    rw [ht.conns, if_pos hd] at h0
    omega
  exact ha.1.elim (fun hne => hne rfl) fun hne => hne hup

/-- An open session whose process goes on answering. -/
structure Served (y : System) : Prop where
  noVainWait : y.proxy.NoVainWait
  answering : y.peer.Answering y.proxy.link.responses
  going : y.proxy.eof = false
  passes : ∀ r ∈ y.proxy.link.responses, r.head.act = Action.pass.code

theorem Served.init (c : Conf) : (System.init c).Served :=
  ⟨NoVainWait.init c, Process.Answering.init, rfl, by rintro r ⟨⟩⟩

/-- **An open session goes on being served.** -/
theorem Served.step (h : y.Served) (hw : y.Working) (ho : y.proxy.hasClosed = false)
    {e : SystemEvent} (hS : Serves y e) (hst : y.step e = some y')
    (ho' : y'.proxy.hasClosed = false) : y'.Served := by
  have hb := hS.1.1
  have hj := hw.sound.joined ho
  rcases step_cases hst with ⟨e, s', rfl, hr, he, rfl⟩ |
    ⟨g, e, p, s', rfl, ⟨h0, hg⟩, ha, hp, hs', rfl⟩
  · have hlast := hw.sound.intact.lasting ho hS.1.2.1 hr ho'
    have hframe := frame_of_rule hr
    have hwait := h.noVainWait.step hw.sound.intact hw.sound.parting hb ho hlast ho'
    have hgoing : s'.eof = false := (hframe.eof ho').trans h.going
    by_cases hcon : ∃ j, e = .connect j
    · obtain ⟨j, rfl⟩ := hcon
      cases hr with
      | connect =>
        have hinit : y.process (y.proxy.conns + 1) = .init := hj.fresh _ (.inr (Nat.lt_succ_self _))
        have hempty : Function.update y.proxy.links (y.proxy.conns + 1) {} (y.proxy.conns + 1) =
            {} := Function.update_self _ _ _
        refine ⟨hwait, ?_, hgoing, fun r hm => ?_⟩
        · show (y.process (y.proxy.conns + 1)).Answering
            (Function.update y.proxy.links (y.proxy.conns + 1) {} (y.proxy.conns + 1)).responses
          rw [hinit, hempty]
          exact Process.Answering.init
        · change r ∈ (Function.update y.proxy.links (y.proxy.conns + 1) {}
            (y.proxy.conns + 1)).responses at hm
          rw [hempty] at hm
          cases hm
    · have hcon : ∀ j, e ≠ .connect j := fun j hj => hcon ⟨j, hj⟩
      have hconns : s'.conns = y.proxy.conns := hframe.conns hcon
      have hres : s'.link.responses = y.proxy.link.responses := by
        rw [link, hconns]
        exact hframe.responses hcon he y.proxy.conns
      have hpeer : ({ y with proxy := s' } : System).peer = y.peer := congrArg y.process hconns
      refine ⟨hwait, ?_, hgoing, ?_⟩
      · rw [hpeer, hres]
        exact h.answering
      · rw [hres]
        exact h.passes
  · obtain rfl : g = y.proxy.conns := by
      have := hw.sound.conns_le ho
      omega
    have hans := h.answering.step hp hj.eof (hj.counter_eq (hj.short hb)) (hS.1.2.2 ho)
      (hw.not_readEof ho h0 ha) fun parses he => by subst he; exact hS.2
    have hpeer : s'.conns = y.proxy.conns →
        (⟨s', Function.update y.process y.proxy.conns p⟩ : System).peer = p := by
      intro hc
      rw [peer, hc]
      exact Function.update_self _ _ _
    rcases answer_eq hs' with ⟨hbegins, rfl⟩ | ⟨r, hbegins, hr⟩
    · refine ⟨h.noVainWait, ?_, h.going, h.passes⟩
      rw [hpeer rfl]
      rw [show y.peer.begins e = none from hbegins, Option.toList_none, List.append_nil] at hans
      exact hans
    · cases hr with
      | respond =>
        have hlink : ∀ l : Link, ({ y.proxy with
            links := Function.update y.proxy.links y.proxy.conns l } : Session).link = l :=
          fun l => Function.update_self _ _ _
        refine ⟨h.noVainWait.respond r, ?_, h.going, fun x hx => ?_⟩
        · rw [hpeer rfl, hlink]
          rw [show y.peer.begins e = some r from hbegins] at hans
          exact hans
        · rw [hlink] at hx
          rcases List.mem_append.1 hx with hx | hx
          · exact h.passes x hx
          · rw [List.mem_singleton.1 hx]
            exact (hj.heads.head hbegins).1

/-- **Nothing but a peer closes a session that is served.** -/
theorem Served.open_of_step (h : y.Served) (hw : y.Working) (ho : y.proxy.hasClosed = false)
    {e : SystemEvent} (hU : Undisturbed y e) (hst : y.step e = some y') :
    y'.proxy.hasClosed = false := by
  rcases step_cases hst with ⟨e, s', rfl, hr, -, rfl⟩ | ⟨g, e, p, s', rfl, -, -, -, hs', rfl⟩
  · refine hw.sound.intact.open_of_rule ho h.going (fun r hm => ?_) hU.1.1.2.1 ?_ ?_ hr
    · rw [h.passes r hm]
      decide
    · rintro d r rfl
      exact hU.2 trivial
    · rintro t rfl
      exact hU.2 trivial
  · rcases answer_eq hs' with ⟨-, rfl⟩ | ⟨r, -, hr⟩
    · exact ho
    · cases hr
      exact ho

/-- What was read stays, while nothing disturbs. -/
theorem received_of_step {e : SystemEvent} (hU : Undisturbed y e) (hst : y.step e = some y')
    (d : Dir) : (y'.proxy.way d).received = (y.proxy.way d).received := by
  rcases step_cases hst with ⟨e, s', rfl, hr, -, rfl⟩ | ⟨g, e, p, s', rfl, -, -, -, hs', rfl⟩
  · refine ((frame_of_rule hr).received d).resolve_right ?_
    rintro ⟨bytes, rfl, -⟩
    exact hU.2 trivial
  · rcases answer_eq hs' with ⟨-, rfl⟩ | ⟨r, -, hr⟩
    · rfl
    · cases hr
      rfl

end System

end CppProxy
