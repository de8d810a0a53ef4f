/-
  cpp_proxy — one write at a time.

  asio asks that a stream performs no other write until a composed write completes.  The
  proxy and the process test nothing before they start to write; where the writes happen
  to be issued one after the other, the link stays framed.

  * `Session.InTurn`, `Process.InTurn`: a write is issued while no other one is in
    progress, and goes on only on the connection it was issued on;
  * `Session.OneWriter`, `Process.OneWriter`: then at most one coroutine is writing, and
    the parts of the frames are sent apart;
  * `linkFramed_of_inTurn`: what either side sends on a connection is the frames it has
    begun there, in order, up to a part of the last.
-/
import CppProxy.Writes

namespace CppProxy

open Session Runs Framing

/-! ## The proxy -/

namespace Session

variable (s : Session)

/-- No other coroutine is writing to the current connection. -/
def Alone (t : Tid) : Prop :=
  (∀ d, Tid.relay d ≠ t → ¬ s.IsWriting (.relay d)) ∧
    ∀ j < s.nConnectors, Tid.connector j ≠ t → ¬ s.IsWriting (.connector j)

instance (t : Tid) : Decidable (s.Alone t) := inferInstanceAs (Decidable (_ ∧ _))

/-- On a connection that is up a write is issued while no other coroutine is writing, and
    goes on only if it was issued there. -/
def InTurn (e : Event) : Prop :=
  s.Alive → (∀ t ∈ s.issues e, s.Alone t) ∧ s.Continues e

instance (e : Event) : Decidable (s.InTurn e) :=
  inferInstanceAs (Decidable (_ → (∀ t ∈ s.issues e, _) ∧ _))

/-- At most one coroutine is writing to the current connection. -/
def OneWriter : Prop := s.Alive → ∀ t t', s.IsWriting t → s.IsWriting t' → t = t'

variable {s} {s' : Session} {e : Event}

theorem Alone.not_isWriting (hs : Shape s) {t t' : Tid} (h : s.Alone t) (ht : t' ≠ t) :
    ¬ s.IsWriting t' := by
  rintro ⟨w, hw, hg⟩
  cases t' with
  | relay d => exact h.1 d ht ⟨w, hw, hg⟩
  | connector j => exact h.2 j (hs.of_linkWrite hw j rfl) ht ⟨w, hw, hg⟩
  | reader i => cases hw
  | detector k => cases hw

theorem OneWriter.init (c : Conf) : (Session.init c).OneWriter := fun ha => by cases ha.1

theorem OneWriter.step (h : s.OneWriter) (hs : Shape s) (hl : Linked s) (hC : s.InTurn e)
    (hr : Rule s e s') : s'.OneWriter := by
  rcases alive_of_rule hr with ⟨hc, ha⟩ | hc
  · intro ha' t t' ht ht'
    have hturn : ∀ {t t'}, s.issues e = some t → s.IsWriting t' → t' = t := by
      intro t t' hi hw
      by_contra hne
      exact ((hC (ha ha')).1 t hi).not_isWriting hs hne hw
    rcases isWriting_of_rule hr hc ht with hw | hi <;>
      rcases isWriting_of_rule hr hc ht' with hw' | hi'
    · exact h (ha ha') t t' hw hw'
    · exact hturn hi' hw
    · exact (hturn hi hw').symm
    · exact Option.some_inj.1 (hi.symm.trans hi')
  · -- no write is on the new connection yet
    intro _ t _ ⟨w, hw, hg, hd, _⟩
    have := gen_le_of_rule (fun t w hw _ => hl.gen t w hw) hr hw hd
    omega

/-- **Writes in turn send the parts of their frames apart.** -/
theorem OneWriter.apart (h : s.OneWriter) (hl : Linked s) (hC : s.InTurn e) (hr : Rule s e s') :
    s.Apart e := by
  cases hr with
  | @pushLink t k w hw hi hg hs hb h0 hk =>
    intro _
    have ht : s.IsWriting t := ⟨w, hw, hg, by simp [hi], fun hn => by rw [hn] at hk; simp at hk; omega⟩
    have hother : ∀ t', t' ≠ t → ¬ s.PartWay t' := by
      rintro t' hne ⟨⟨f, r⟩, hp, hpart⟩
      obtain ⟨w', hw', hg', -, rfl⟩ := writers_eq_some.1 hp
      exact hne (h ⟨hs, hb⟩ t' t ⟨w', hw', hg', fun hd => hl.dead t' w' hw' hd hg' hs, hpart.1⟩ ht)
    exact ⟨fun d hd => hother _ hd, fun j _ hj => hother _ hj⟩
  | @pushPeer t k d w hw => exact fun hn => absurd (linkWrite_of_peerWrite hw) hn
  | issueWrite => exact fun ha w hw _ => (hC ha).2 w hw
  | issueRead => exact fun ha w hw _ => (hC ha).2 w hw
  | _ => trivial

end Session

/-! ## The process -/

/-- A frame with this head is answered. -/
def IsAnswered (head : List Byte) : Prop :=
  DataType.ofCode (head.getD 0 0) = some .fromClientToServer ∨
    DataType.ofCode (head.getD 0 0) = some .fromServerToClient ∧ bodyLen head ≠ 0

instance (head : List Byte) : Decidable (IsAnswered head) := inferInstanceAs (Decidable (_ ∨ _))

namespace Process

variable (p : Process)

/-- The head of the frame that `setup` handles in a step. -/
def handles : ProcessEvent → Option (List Byte)
  | .readDone _ =>
    match p.setup with
    | .readHead got => if bodyLen got = 0 then some got else none
    | .readBody head _ => some head
    | _ => none
  | .readEof garbage _ =>
    match p.setup with
    | .readHead got => if bodyLen (got ++ garbage) = 0 then some (got ++ garbage) else none
    | .readBody head _ => some head
    | _ => none
  | _ => none

/-- The coroutine that starts to write a head. -/
def starts : ProcessEvent → Option Coroutine
  | .tick => some .heartbeat
  | e => ((p.handles e).filter fun head => IsAnswered head).map fun _ => .setup

/-- Coroutine `t` has a head that is not all sent. -/
def IsWriting (t : Coroutine) : Prop := ∃ w ∈ p.headWrite t, w.rest ≠ []

instance (t : Coroutine) : Decidable (p.IsWriting t) :=
  inferInstanceAs (Decidable (∃ w ∈ p.headWrite t, _))

/-- While the socket is open a coroutine starts to write only when the other one is not
    writing. -/
def InTurn (e : ProcessEvent) : Prop :=
  p.hasClosed = false → ∀ t ∈ p.starts e, ¬ p.IsWriting t.other

instance (e : ProcessEvent) : Decidable (p.InTurn e) :=
  inferInstanceAs (Decidable (_ → ∀ t ∈ p.starts e, _))

/-- At most one of the two coroutines is writing. -/
def OneWriter : Prop := p.hasClosed = false → ∀ t, p.IsWriting t → ¬ p.IsWriting t.other

variable {p} {p' : Process} {e : ProcessEvent}

theorem isWriting_setupLoop {x : Process} {t : Coroutine} (h : x.setupLoop.IsWriting t)
    (hb : x.heartbeat = p.heartbeat) : t = .heartbeat ∧ p.IsWriting t := by
  obtain ⟨w, hw, hn⟩ := h
  unfold setupLoop at hw
  cases t with
  | setup => split at hw <;> cases hw
  | heartbeat =>
    refine ⟨rfl, w, ?_, hn⟩
    rw [headWrite, ← hb]
    split at hw <;> exact hw

theorem isWriting_heartbeatLoop {t : Coroutine} (h : p.heartbeatLoop.IsWriting t) :
    p.IsWriting t := by
  cases t with
  | setup => exact h
  | heartbeat =>
    obtain ⟨w, hw, -⟩ := h
    simp only [heartbeatLoop, headWrite] at hw
    cases hc : p.hasClosed <;> rw [hc] at hw <;> cases hw

/-- A frame that is handled is answered only if it `IsAnswered`. -/
theorem isWriting_handle {head : List Byte} {parses : Bool} {t : Coroutine}
    (h : (p.handle head parses).IsWriting t) :
    t = .setup ∧ IsAnswered head ∨ t = .heartbeat ∧ p.IsWriting t := by
  unfold handle at h
  dsimp only at h
  split at h
  · cases t with
    | setup => exact .inl ⟨rfl, .inl ‹_›⟩
    | heartbeat => exact .inr ⟨rfl, h⟩
  · split at h
    · exact .inr (isWriting_setupLoop h rfl)
    · cases t with
      | setup => exact .inl ⟨rfl, .inr ⟨‹_›, ‹_›⟩⟩
      | heartbeat => exact .inr ⟨rfl, h⟩
  · split at h
    · exact .inr (isWriting_setupLoop h rfl)
    · cases t with
      | setup => obtain ⟨w, hw, -⟩ := h; cases hw
      | heartbeat => exact .inr ⟨rfl, h⟩
  · exact .inr (isWriting_setupLoop h rfl)

theorem isWriting_setupHead {head : List Byte} {parses : Bool} {t : Coroutine}
    (h : (p.setupHead head parses).IsWriting t) :
    t = .setup ∧ bodyLen head = 0 ∧ IsAnswered head ∨ t = .heartbeat ∧ p.IsWriting t := by
  unfold setupHead at h
  dsimp only at h
  split at h
  · cases t with
    | setup => obtain ⟨w, hw, -⟩ := h; cases hw
    | heartbeat => exact .inr ⟨rfl, h⟩
  · rename_i hz
    exact (isWriting_handle h).imp_left fun ⟨ht, ha⟩ => ⟨ht, not_not.1 hz, ha⟩

/-- A head that is not all sent was not before, or is started now. -/
theorem isWriting_of_step (hst : p.step e = some p') {t : Coroutine} (hw : p'.IsWriting t) :
    p.IsWriting t ∨ p.starts e = some t := by
  cases e with
  | pull bytes =>
    simp only [step] at hst
    split at hst
    case h_2 => cases hst
    case h_1 got want hq =>
      split at hst <;> cases hst
      cases t with
      | setup =>
        obtain ⟨w, hw, hn⟩ := hw
        cases hpc : p.setup <;> rw [hpc] at hq <;> cases hq <;>
          simp [headWrite, hpc, SetupPc.setGot] at hw
      | heartbeat => exact .inl hw
  | readDone parses =>
    simp only [step] at hst
    split at hst
    case h_1 got hpc =>
      split at hst <;> cases hst
      rcases isWriting_setupHead hw with ⟨rfl, hz, ha⟩ | ⟨-, hw⟩
      · exact .inr (by simp [starts, handles, hpc, hz, ha])
      · exact .inl hw
    case h_2 head got hpc =>
      split at hst <;> cases hst
      rcases isWriting_handle hw with ⟨rfl, ha⟩ | ⟨rfl, hw⟩
      · exact .inr (by simp [starts, handles, hpc, ha])
      · exact .inl hw
    case h_3 => cases hst
  | readEof garbage parses =>
    simp only [step] at hst
    split at hst
    case h_1 got hpc =>
      split at hst <;> cases hst
      rcases isWriting_setupHead hw with ⟨rfl, hz, ha⟩ | ⟨rfl, hw⟩
      · exact .inr (by simp [starts, handles, hpc, hz, ha])
      · exact .inl hw
    case h_2 head got hpc =>
      split at hst <;> cases hst
      rcases isWriting_handle hw with ⟨rfl, ha⟩ | ⟨rfl, hw⟩
      · exact .inr (by simp [starts, handles, hpc, ha])
      · exact .inl hw
    case h_3 => cases hst
  | readError =>
    simp only [step] at hst
    split at hst
    case h_2 => cases hst
    case h_1 =>
      split at hst <;> cases hst
      cases t with
      | setup => obtain ⟨w, hw, -⟩ := hw; cases hw
      | heartbeat => exact .inl hw
  | tick =>
    simp only [step] at hst
    split at hst <;> cases hst
    cases t with
    | setup => exact .inl hw
    | heartbeat => exact .inr rfl
  | cancelled =>
    simp only [step] at hst
    split at hst
    case h_2 => cases hst
    case h_1 =>
      split at hst <;> cases hst
      exact .inl (isWriting_heartbeatLoop hw)
  | push t₁ k =>
    simp only [step] at hst
    split at hst
    case h_2 => cases hst
    case h_1 w₁ hw₁ =>
      split at hst <;> cases hst
      refine .inl ?_
      obtain ⟨w, hw, hn⟩ := hw
      by_cases ht : t = t₁
      · subst ht
        refine ⟨w₁, hw₁, fun hr => hn ?_⟩
        cases t <;> cases hw <;> simp [hr]
      · refine ⟨w, ?_, hn⟩
        cases t <;> cases t₁ <;> first | exact absurd rfl ht | exact hw
  | wrote t₁ =>
    simp only [step] at hst
    split at hst
    case h_2 => cases hst
    case h_1 w₁ hw₁ =>
      split at hst
      case isFalse => cases hst
      case isTrue hr =>
        cases t₁ with
        | setup => cases hst; exact .inl (isWriting_setupLoop hw rfl).2
        | heartbeat => cases hst; exact .inl (isWriting_heartbeatLoop hw)
  | writeFailed t₁ =>
    simp only [step] at hst
    split at hst
    case h_2 => cases hst
    case h_1 =>
      split at hst
      case isFalse => cases hst
      case isTrue =>
        refine .inl ?_
        obtain ⟨w, hw, hn⟩ := hw
        cases t₁ <;> cases hst <;> cases t <;> first | cases hw | exact ⟨w, hw, hn⟩

theorem closed_setupLoop (h : p.hasClosed = true) : p.setupLoop.hasClosed = true := by
  unfold setupLoop
  split
  · rfl
  · exact h

theorem closed_handle (h : p.hasClosed = true) (head : List Byte) (parses : Bool) :
    (p.handle head parses).hasClosed = true := by
  unfold handle
  dsimp only
  split
  · exact h
  · split
    · exact closed_setupLoop h
    · exact h
  · split
    · exact closed_setupLoop h
    · exact h
  · exact closed_setupLoop h

theorem closed_setupHead (h : p.hasClosed = true) (head : List Byte) (parses : Bool) :
    (p.setupHead head parses).hasClosed = true := by
  unfold setupHead
  dsimp only
  split
  · exact h
  · exact closed_handle (p := p.growBuf _) h head parses

/-- A closed session stays closed. -/
theorem closed_of_step (hst : p.step e = some p') (hc : p.hasClosed = true) :
    p'.hasClosed = true := by
  cases e with
  | pull | push =>
    simp only [step] at hst
    split at hst
    case h_2 => cases hst
    case h_1 =>
      split at hst
      case isTrue ho => rw [hc] at ho; cases ho.1
      case isFalse => cases hst
  | readDone parses =>
    simp only [step] at hst
    split at hst
    case h_1 => split at hst <;> cases hst; exact closed_setupHead hc _ _
    case h_2 => split at hst <;> cases hst; exact closed_handle (p := p.setBuf _) hc _ _
    case h_3 => cases hst
  | readEof garbage parses =>
    simp only [step] at hst
    split at hst
    case h_1 =>
      split at hst <;> cases hst
      exact closed_setupHead (p := { p with eof := true }) hc _ _
    case h_2 =>
      split at hst <;> cases hst
      exact closed_handle (p := { p with eof := true }.setBuf _) hc _ _
    case h_3 => cases hst
  | readError =>
    simp only [step] at hst
    split at hst
    case h_2 => cases hst
    case h_1 => split at hst <;> cases hst; rfl
  | tick =>
    simp only [step] at hst
    split at hst <;> cases hst
    exact hc
  | cancelled =>
    simp only [step] at hst
    split at hst
    case h_2 => cases hst
    case h_1 => rw [if_pos hc] at hst; cases hst; exact hc
  | wrote t =>
    simp only [step] at hst
    split at hst
    case h_2 => cases hst
    case h_1 =>
      split at hst
      case isFalse => cases hst
      case isTrue => cases t <;> cases hst; exacts [closed_setupLoop hc, hc]
  | writeFailed t =>
    simp only [step] at hst
    split at hst
    case h_2 => cases hst
    case h_1 =>
      split at hst
      case isFalse => cases hst
      case isTrue => cases t <;> cases hst <;> rfl

theorem Coroutine.other_ne (t : Coroutine) : t.other ≠ t := by
  cases t <;> simp [Coroutine.other]

theorem OneWriter.init : Process.init.OneWriter := by
  rintro - t ⟨w, hw, -⟩
  cases t <;> cases hw

theorem OneWriter.step (h : p.OneWriter) (hC : p.InTurn e) (hst : p.step e = some p') :
    p'.OneWriter := by
  intro ho t ht ht'
  have ho₀ : p.hasClosed = false := by
    by_contra hc
    rw [closed_of_step hst (by simpa using hc)] at ho
    cases ho
  rcases isWriting_of_step hst ht with hw | hi <;> rcases isWriting_of_step hst ht' with hw' | hi'
  · exact h ho₀ t hw hw'
  · refine hC ho₀ _ hi' ?_
    cases t <;> exact hw
  · exact hC ho₀ _ hi hw'
  · exact Coroutine.other_ne t (Option.some_inj.1 (hi'.symm.trans hi))

/-- **Heads that are written in turn** are sent apart. -/
theorem OneWriter.apart (h : p.OneWriter) (hst : p.step e = some p') : p.Apart e := by
  cases e with
  | push t k =>
    simp only [Process.step] at hst
    split at hst
    case h_2 => cases hst
    case h_1 w hw =>
      split at hst
      case isFalse => cases hst
      case isTrue hc =>
        rintro ⟨⟨f, r⟩, hp, hpart⟩
        have hother := writers_eq_some.1 hp
        refine h hc.1 t ⟨w, hw, fun hn => ?_⟩ ⟨_, hother, hpart.1⟩
        rw [hn] at hc
        simp at hc
        omega
  | _ => trivial

end Process

/-! ## The link -/

/-- On every connection the proxy has sent whole frames, and a part of one more. -/
def Session.LinkFramed (s : Session) : Prop :=
  ∀ g, Framed IsFrame (s.links g).begun (s.links g).sent

/-- The process has sent whole heads, and a part of one more. -/
def Process.LinkFramed (p : Process) : Prop := Framed IsHead p.begun p.sent

/-- **The link stays framed** on both ends when the writes are issued in turn. -/
theorem linkFramed_of_inTurn {c : Conf} {s : Session} {p : Process}
    (hs : Reach Session.step Session.InTurn (Session.init c) s)
    (hp : Reach Process.step Process.InTurn Process.init p) : s.LinkFramed ∧ p.LinkFramed := by
  constructor
  · have hi : Shape s ∧ Linked s ∧ s.OneWriter :=
      hs.inv (I := fun s => Shape s ∧ Linked s ∧ s.OneWriter)
        ⟨Shape.init c, Linked.init c, OneWriter.init c⟩ fun s e s' ⟨hs, hl, hone⟩ hC he =>
          have hr := rule_of_step he
          ⟨hs.step hr, hl.step hs (hone.apart hl hC hr) hr, hone.step hs hl hC hr⟩
    exact hi.2.1.sent
  · have hi : p.Linked ∧ p.OneWriter := hp.inv (I := fun p => p.Linked ∧ p.OneWriter)
      ⟨Process.Linked.init, Process.OneWriter.init⟩ fun p e p' ⟨hl, hone⟩ hC he =>
        ⟨hl.step (hone.apart he) he, hone.step hC he⟩
    exact hi.1.sent

/-- The notification and then a data frame in two parts; a pass head in two parts and
    then a heartbeat. -/
theorem linkFramed_twoParts : ∃ (s : Session) (p : Process), (s.links 1).begun.length = 3 ∧
    p.begun.length = 2 ∧ s.LinkFramed ∧ p.LinkFramed := by
  obtain ⟨s, hs, hlen⟩ := exists_runIf Session.step Session.InTurn
    (Session.init (localConf true))
    (firstUp ++ [.read .res (.data [7]), .push (.relay .res) 1, .complete (.relay .res),
      .push (.relay .res) 5, .read .req (.data [2, 3]), .push (.relay .req) 3,
      .issue (.relay .req), .push (.relay .req) 4])
    (fun s => (s.links 1).begun.length == 3) (by decide +kernel)
  obtain ⟨p, hp, hlen'⟩ := exists_runIf Process.step Process.InTurn Process.init
    ([.pull [0, 1, 0, 0, 0], .readDone true, .pull [9], .readDone true, .push .setup 4,
      .push .setup 12, .tick, .push .heartbeat 16])
    (fun p => p.begun.length == 2) (by decide +kernel)
  exact ⟨s, p, beq_iff_eq.1 hlen, beq_iff_eq.1 hlen', linkFramed_of_inTurn hs hp⟩

/-- The notification goes out between two parts of a data frame, and a heartbeat
    between two parts of a pass head. -/
theorem not_linkFramed :
    (¬ ∀ c s, Reach Session.step (fun _ _ => True) (Session.init c) s → s.LinkFramed) ∧
      ¬ ∀ p, Reach Process.step (fun _ _ => True) Process.init p → p.LinkFramed := by
  constructor
  · intro h
    obtain ⟨s, hs, hp⟩ := exists_run Session.step (fun _ _ => True)
      (Session.init (localConf true))
      (firstUp ++ [.read .res (.data [7]), .push (.relay .res) 1, .complete (.relay .res),
        .read .req (.data [2, 3]), .push (.relay .req) 3, .push (.relay .res) 5])
      (fun s => ! (s.links 1).sent.isPrefixOf (s.links 1).begun.flatten)
      (fun _ _ _ => trivial) (by decide +kernel)
    rw [List.isPrefixOf_iff_prefix.2 (h _ s hs 1).within] at hp
    cases hp
  · intro h
    obtain ⟨p, hp, hn⟩ := exists_run Process.step (fun _ _ => True)
      Process.init
      ([.pull [0, 1, 0, 0, 0], .readDone true, .pull [9], .readDone true, .push .setup 4, .tick,
        .push .heartbeat 16])
      (fun p => ! p.sent.isPrefixOf p.begun.flatten) (fun _ _ _ => trivial) (by decide +kernel)
    rw [List.isPrefixOf_iff_prefix.2 (h p hp).within] at hn
    cases hn

end CppProxy
