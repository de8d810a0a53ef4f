/-
  cpp_proxy — how a process connection begins.

  The process expects the four tuple first.  The kernel connects the socket some
  time before `connect_process` is resumed, and the relays write to whatever
  connection is current.

  * `Session.TupleFirst`: the first frame on every connection is the four tuple;
  * `ConnectorPc.Opening`: the four tuple of a connection is still to come;
  * `WaitsForTuple`: meanwhile nobody else issues a write on it;
  * `Waiting`: then nobody else has one there, and what is sent first is the four tuple;
  * `tupleFirst_of_waits`: the four tuple comes first in every such run.
-/
import CppProxy.Writes

namespace CppProxy

open Session Runs

/-- The frame of the session's four tuple. -/
def Session.tuple (s : Session) : List Byte := frame .fourTuple s.fourTuple

/-- On every connection that carried something, the first frame is the four tuple. -/
def Session.TupleFirst (s : Session) : Prop :=
  ∀ g, (s.links g).sent ≠ [] → (s.links g).begun.head? = some s.tuple ∧
    (s.links g).sent.head? = s.tuple.head?

/-- The connector is connected and has sent nothing of its four tuple. -/
def ConnectorPc.Opening (conns : ℕ) : ConnectorPc → Prop
  | connecting up => up = true
  | fourTuple conn w => conn = conns ∧ w.rest = w.frame
  | _ => False

instance (conns : ℕ) : ∀ pc : ConnectorPc, Decidable (pc.Opening conns)
  | .connecting _ => inferInstanceAs (Decidable (_ = _))
  | .fourTuple _ _ => inferInstanceAs (Decidable (_ ∧ _))
  | .waiting | .done => inferInstanceAs (Decidable False)

/-- The connector sends the four tuple of connection `conns`. -/
def ConnectorPc.Opens (conns : ℕ) : ConnectorPc → Prop
  | fourTuple conn _ => conn = conns
  | _ => False

instance (conns : ℕ) : ∀ pc : ConnectorPc, Decidable (pc.Opens conns)
  | .fourTuple _ _ => inferInstanceAs (Decidable (_ = _))
  | .connecting _ | .waiting | .done => inferInstanceAs (Decidable False)

namespace Session

variable (s : Session)

/-- Coroutine `t` sends the four tuple of the current connection. -/
def Opens : Tid → Prop
  | .connector j => (s.connectors j).Opens s.conns
  | .relay _ | .reader _ | .detector _ => False

/-- No four tuple of the current connection is still to come. -/
def IsOpened : Prop := ∀ j < s.nConnectors, ¬ (s.connectors j).Opening s.conns

instance : ∀ t, Decidable (s.Opens t)
  | .connector _ => inferInstanceAs (Decidable (ConnectorPc.Opens _ _))
  | .relay _ | .reader _ | .detector _ => inferInstanceAs (Decidable False)
instance : Decidable s.IsOpened := inferInstanceAs (Decidable (∀ j < s.nConnectors, _))

end Session

/-- While a connection is up and its four tuple is still to come, only the connector that
    is to send it issues a write: no payload is read for the process, no notification is
    due, and no older write is at its next part. -/
def WaitsForTuple (s : Session) : Event → Prop
  | .complete (.connector _) => True
  | e => s.Alive → ¬ s.IsOpened → ∀ t ∈ s.issues e, s.Opens t

instance (s : Session) : ∀ e, Decidable (WaitsForTuple s e)
  | .complete (.connector _) => inferInstanceAs (Decidable True)
  | .complete (.relay d) => inferInstanceAs
    (Decidable (_ → _ → ∀ t ∈ s.issues (.complete (.relay d)), s.Opens t))
  | .complete (.reader _) | .complete (.detector _) | .push _ _ | .pull _ _ | .fail _
  | .connect _ | .expire _ | .respond _ _ => .isTrue fun _ _ _ ht => by cases ht
  | .read d r => inferInstanceAs (Decidable (_ → _ → ∀ t ∈ s.issues (.read d r), s.Opens t))
  | .issue t => inferInstanceAs (Decidable (_ → _ → ∀ t' ∈ s.issues (.issue t), s.Opens t'))

/-- A part is sent by the connector of the four tuple, or when the four tuple was begun. -/
def SendsFirst (s : Session) : Event → Prop
  | .push t _ => s.linkWrite t ≠ none → s.Opens t ∨ s.IsOpened
  | _ => True

/-! ## The invariant -/

/-- A write of the four tuple of connection `conn` that has sent nothing is still the first
    one that was issued. -/
structure TupleWrite (s : Session) (conn : ℕ) (w : LinkWrite) : Prop where
  frame : w.frame = s.tuple
  old : conn ≤ s.conns
  suffix : w.rest <:+ w.frame
  unsent : w.rest = w.frame → w.gen = conn ∧ w.io ≠ .idle
  sent : w.rest = w.frame ∨ (s.links conn).sent ≠ []
  live : w.rest = w.frame → conn = s.conns → w.io = .live ∨ s.proxyProcessSocket ≠ .connected

/-- A connection that has sent anything begins with the four tuple; one that has not is
    with the connector that will send it. -/
structure Opened (s : Session) : Prop where
  first : s.TupleFirst
  begun : ∀ g, (s.links g).sent = [] → (s.links g).begun = []
  tuple : ∀ j conn w, s.connectors j = .fourTuple conn w → TupleWrite s conn w
  fresh : s.proxyProcessSocket = .connected → s.link.broken = false → s.link.sent = [] →
    ∃ j, (s.connectors j).Opening s.conns

theorem tuple_ne_nil (s : Session) : s.tuple ≠ [] := by
  simp [tuple, frame]

theorem ConnectorPc.Opening.ne_done {conns : ℕ} {pc : ConnectorPc} (h : pc.Opening conns) :
    pc ≠ .done := by
  rintro rfl
  exact h

namespace Opened

variable {s s' : Session}

/-- On a connection that is opened something was sent. -/
theorem sent_ne_nil (h : Opened s) (hs : Shape s) (hc : s.proxyProcessSocket = .connected)
    (hb : s.link.broken = false) (ho : s.IsOpened) : s.link.sent ≠ [] := by
  intro hnil
  obtain ⟨j, hj⟩ := h.fresh hc hb hnil
  exact ho j (hs.connector_lt hj.ne_done) hj

/-- Code runs that starts no four tuple; if its coroutine was to send one, the connection is
    gone. -/
theorem keep (h : Opened s) (hs : Shape s) {t : Option Tid} (hm : Resumed s s' t)
    (hown : ∀ j, t = some (.connector j) → (∀ conn w, s'.connectors j ≠ .fourTuple conn w) ∧
      ((s.connectors j).Opening s.conns → s'.proxyProcessSocket = .connected →
        s'.link.broken = true)) : Opened s' := by
  have htuple : s'.tuple = s.tuple := by rw [Session.tuple, Session.tuple, hm.fourTuple]
  have hbroken : s'.link.broken = false → s.link.broken = false := by
    intro hb
    by_contra hn
    have := hm.broken s.conns (by simpa [link] using hn)
    rw [link, hm.conns, this] at hb
    cases hb
  refine ⟨fun g hg => ?_, fun g hg => ?_, fun j conn w hj => ?_, fun hc hb hnil => ?_⟩
  · rw [hm.sent] at hg
    rw [hm.begun, hm.sent, htuple]
    exact h.first g hg
  · rw [hm.sent] at hg
    rw [hm.begun]
    exact h.begun g hg
  · have ht : t ≠ some (.connector j) := fun ht => (hown j ht).1 conn w hj
    have hj₀ : s.connectors j = .fourTuple conn w := by
      rcases hm.connector j ht with h' | ⟨-, h' | h'⟩
      · rw [← h']; exact hj
      · rw [hj] at h'; cases h'
      · rw [hj] at h'; cases h'
    have hw := h.tuple j conn w hj₀
    refine ⟨htuple ▸ hw.frame, hm.conns ▸ hw.old, hw.suffix, hw.unsent, ?_, fun hr hc => ?_⟩
    · rw [hm.sent]; exact hw.sent
    · exact (hw.live hr (hm.conns ▸ hc)).imp_right fun hn hc' => hn (hm.socket hc')
  · have hnil₀ : s.link.sent = [] := by rw [link, ← hm.sent, ← hm.conns]; exact hnil
    obtain ⟨j, hj⟩ := h.fresh (hm.socket hc) (hbroken hb) hnil₀
    by_cases ht : t = some (.connector j)
    · rw [(hown j ht).2 hj hc] at hb
      cases hb
    · refine ⟨j, ?_⟩
      have hlt := hs.connector_lt hj.ne_done
      rcases hm.connector j ht with h' | ⟨hn, -⟩
      · rw [h', hm.conns]; exact hj
      · omega

theorem init (c : Conf) : Opened (Session.init c) := by
  refine ⟨fun g hg => absurd rfl hg, fun _ _ => rfl, fun j conn w hj => ?_, fun hc => by cases hc⟩
  by_cases h0 : j = 0
  · subst h0; cases hj
  · have hdone : (Session.init c).connectors j = .done := (Shape.init c).connectors j (by
      show 1 ≤ j
      omega)
    rw [hdone] at hj; cases hj

/-- A part is sent: what the current connection has carried begins with its four tuple. -/
theorem sendLink_first (h : Opened s) {w : LinkWrite} {k : ℕ} (h0 : 0 < k) (hk : k ≤ w.rest.length)
    (hw : s.link.sent ≠ [] ∨ w.rest = w.frame ∧ w.frame = s.tuple) :
    (s.sendLink w k).TupleFirst ∧ ∀ g, ((s.sendLink w k).links g).sent = [] →
      ((s.sendLink w k).links g).begun = [] := by
  have htake : w.rest.take k ≠ [] := by
    intro hn
    have := congrArg List.length hn
    rw [List.length_take, List.length_nil] at this
    omega
  constructor
  · intro g hg
    by_cases hgc : g = s.conns
    · subst hgc
      simp only [Session.sendLink, Session.setLink, Function.update_self]
      show (s.link.begun ++ _).head? = some s.tuple ∧ (s.link.sent ++ _).head? = s.tuple.head?
      by_cases hsent : s.link.sent = []
      · obtain ⟨hr, hf⟩ := hw.resolve_left (fun hn => hn hsent)
        rw [hsent, show s.link.begun = [] from h.begun s.conns hsent, if_pos hr, hr, hf]
        refine ⟨rfl, ?_⟩
        rw [List.nil_append]
        cases ht : s.tuple with
        | nil => exact absurd ht (tuple_ne_nil s)
        | cons b bs =>
          obtain ⟨k, rfl⟩ := Nat.exists_eq_succ_of_ne_zero (by omega : k ≠ 0)
          rfl
      · obtain ⟨hb, hs⟩ := h.first s.conns hsent
        refine ⟨?_, ?_⟩
        · rw [List.head?_append, show s.link.begun.head? = some s.tuple from hb]
          rfl
        · rw [List.head?_append, show s.link.sent.head? = s.tuple.head? from hs]
          cases ht : s.tuple with
          | nil => exact absurd ht (tuple_ne_nil s)
          | cons b bs => rfl
    · simp only [Session.sendLink, Session.setLink, Function.update_of_ne hgc] at hg ⊢
      exact h.first g hg
  · intro g hg
    by_cases hgc : g = s.conns
    · subst hgc
      simp only [Session.sendLink, Session.setLink, Function.update_self,
        List.append_eq_nil_iff] at hg
      exact absurd hg.2 htake
    · simp only [Session.sendLink, Session.setLink, Function.update_of_ne hgc] at hg ⊢
      exact h.begun g hg

/-- The part of another frame, or the first one of the four tuple, is sent. -/
theorem pushLink (h : Opened s) (hs : Shape s) {t : Tid} {w : LinkWrite} {k : ℕ}
    (hw : s.linkWrite t = some w) (hg : w.gen = s.conns) (hc : s.proxyProcessSocket = .connected)
    (hb : s.link.broken = false) (h0 : 0 < k) (hk : k ≤ w.rest.length)
    (hC : s.Opens t ∨ s.IsOpened) :
    Opened ((s.sendLink w k).setLinkWrite { w with io := .idle, rest := w.rest.drop k } t) := by
  have hsent : ∀ g, (s.links g).sent ≠ [] → ((s.sendLink w k).links g).sent ≠ [] := by
    intro g hg
    by_cases hgc : g = s.conns
    · subst hgc
      simp only [Session.sendLink, Session.setLink, Function.update_self]
      exact fun hn => hg (List.append_eq_nil_iff.1 hn).1
    · simpa [Session.sendLink, Session.setLink, hgc] using hg
  have hnow : ((s.sendLink w k).links s.conns).sent ≠ [] := by
    simp only [Session.sendLink, Session.setLink, Function.update_self]
    intro hn
    have := congrArg List.length (List.append_eq_nil_iff.1 hn).2
    rw [List.length_take, List.length_nil] at this
    omega
  -- a frame that is not begun is the four tuple of this connection
  have hown : ∀ j, t = .connector j → ∃ conn, s.connectors j = .fourTuple conn w := by
    rintro j rfl
    simp only [linkWrite] at hw
    cases hpc : s.connectors j <;> rw [hpc] at hw <;> cases hw
    exact ⟨_, rfl⟩
  have hfirst := h.sendLink_first h0 hk (by
    by_cases hnil : s.link.sent = []
    · rcases hC with ht | ho
      · cases t with
        | connector j =>
          obtain ⟨conn, hj⟩ := hown j rfl
          have hconn : conn = s.conns := by
            change (s.connectors j).Opens s.conns at ht
            rw [hj] at ht; exact ht
          subst hconn
          have htw := h.tuple j _ w hj
          exact .inr ⟨htw.sent.resolve_right fun hn => hn hnil, htw.frame⟩
        | _ => exact ht.elim
      · exact absurd hnil (h.sent_ne_nil hs hc hb ho)
    · exact .inl hnil)
  have htuple : ∀ {conn w'}, TupleWrite s conn w' → TupleWrite
      ((s.sendLink w k).setLinkWrite { w with io := .idle, rest := w.rest.drop k } t) conn w' := by
    intro conn w' htw
    refine ⟨?_, ?_, htw.suffix, htw.unsent, ?_, ?_⟩ <;> cases t <;>
      first
      | exact htw.frame
      | exact htw.old
      | exact htw.sent.imp_right (hsent conn)
      | exact htw.live
  refine ⟨?_, ?_, fun j conn w' hj => ?_, fun _ _ hnil => ?_⟩
  · cases t <;> exact hfirst.1
  · cases t <;> exact hfirst.2
  · by_cases ht : t = .connector j
    · subst ht
      obtain ⟨conn₀, hj₀⟩ := hown j rfl
      have htw := h.tuple j conn₀ w hj₀
      have hlt : (w.rest.drop k).length < w.frame.length := by
        have := htw.suffix.length_le
        rw [List.length_drop]; omega
      have hne : w.rest.drop k ≠ w.frame := fun he => by rw [he] at hlt; omega
      simp only [setLinkWrite, Session.setConnector, Function.update_self] at hj
      have hj' : ConnectorPc.fourTuple conn₀ { w with io := .idle, rest := w.rest.drop k } =
          .fourTuple conn w' := by
        rw [← hj]
        show _ = (s.connectors j).setLinkWrite _
        rw [hj₀]; rfl
      cases hj'
      refine ⟨htw.frame, htw.old, (List.drop_suffix k _).trans htw.suffix,
        fun he => absurd he hne, .inr ?_, fun he => absurd he hne⟩
      rcases htw.sent with hr | hn
      · have hconn : conn = s.conns := (htw.unsent hr).1.symm.trans hg
        rw [hconn]; exact hnow
      · exact hsent conn hn
    · refine htuple (h.tuple j conn w' ?_)
      cases t with
      | connector j' =>
        have hjj : j ≠ j' := fun hjj => ht (by rw [hjj])
        simpa [setLinkWrite, Session.setConnector, hjj, Session.sendLink, Session.setLink] using hj
      | _ => exact hj
  · exact absurd hnil (by cases t <;> exact hnow)

/-- The next part of a frame is issued: the frame was begun before. -/
theorem issueWrite (h : Opened s) (hs : Shape s) {t : Tid} {w : LinkWrite}
    (hw : s.linkWrite t = some w) (hi : w.io = .idle) :
    Opened (s.setLinkWrite { w with gen := s.conns, io := s.issued } t) := by
  cases t with
  | relay d =>
    exact h.keep hs ((Resumed.refl s (some (.relay d))).setWay _) fun j hj => by cases hj
  | connector j =>
    obtain ⟨conn, hj⟩ : ∃ conn, s.connectors j = .fourTuple conn w := by
      simp only [linkWrite] at hw
      cases hpc : s.connectors j <;> rw [hpc] at hw <;> cases hw
      exact ⟨_, rfl⟩
    have htw := h.tuple j conn w hj
    have hne : w.rest ≠ w.frame := fun he => (htw.unsent he).2 hi
    refine ⟨h.first, h.begun, fun j' conn' w' hj' => ?_, fun hc hb hnil => ?_⟩
    · by_cases hjj : j' = j
      · subst hjj
        simp only [setLinkWrite, Session.setConnector, Function.update_self, hj,
          ConnectorPc.setLinkWrite, ConnectorPc.fourTuple.injEq] at hj'
        obtain ⟨rfl, rfl⟩ := hj'
        exact ⟨htw.frame, htw.old, htw.suffix, fun he => absurd he hne, htw.sent,
          fun he => absurd he hne⟩
      · simp only [setLinkWrite, Session.setConnector, Function.update_of_ne hjj] at hj'
        have htw' := h.tuple j' conn' w' hj'
        exact ⟨htw'.frame, htw'.old, htw'.suffix, htw'.unsent, htw'.sent, htw'.live⟩
    · obtain ⟨j', hj'⟩ := h.fresh hc hb hnil
      have hjj : j' ≠ j := by
        rintro rfl
        rw [hj] at hj'
        exact hne hj'.2
      exact ⟨j', by simpa [setLinkWrite, Session.setConnector, hjj] using hj'⟩
  | reader i => cases hw
  | detector k => cases hw

/-- `connect_process` is resumed and starts to send the four tuple. -/
theorem connected (h : Opened s) {j : ℕ} : Opened (s.fourTuple2process j) := by
  refine ⟨h.first, h.begun, fun j' conn w hj => ?_, fun hc hb hnil => ?_⟩
  · by_cases hjj : j' = j
    · subst hjj
      simp only [fourTuple2process, Session.setConnector, Function.update_self,
        ConnectorPc.fourTuple.injEq] at hj
      obtain ⟨rfl, rfl⟩ := hj
      have hio : s.issued ≠ .idle := by
        unfold issued; split <;> simp
      refine ⟨rfl, le_rfl, List.suffix_rfl, fun _ => ⟨rfl, hio⟩, .inl rfl, fun _ _ => ?_⟩
      show s.issued = .live ∨ s.proxyProcessSocket ≠ .connected
      by_cases hc : s.proxyProcessSocket = .connected
      · exact .inl (by simp [issued, hc])
      · exact .inr hc
    · simp only [fourTuple2process, Session.setConnector, Function.update_of_ne hjj] at hj
      have htw := h.tuple j' conn w hj
      exact ⟨htw.frame, htw.old, htw.suffix, htw.unsent, htw.sent, htw.live⟩
  · obtain ⟨j', hj'⟩ := h.fresh hc hb hnil
    by_cases hjj : j' = j
    · subst hjj
      refine ⟨j', ?_⟩
      simp only [fourTuple2process, Session.setConnector, Function.update_self]
      exact ⟨rfl, rfl⟩
    · exact ⟨j', by simpa [fourTuple2process, Session.setConnector, hjj] using hj'⟩

/-- The kernel connects the socket: `connect_process` is still to be resumed. -/
theorem connect (h : Opened s) {j : ℕ} (hpc : s.connectors j = .connecting false) :
    Opened { s with
      proxyProcessSocket := .connected
      conns := s.conns + 1
      links := Function.update s.links (s.conns + 1) {}
      connectors := Function.update s.connectors j (.connecting true) } := by
  refine ⟨fun g hg => ?_, fun g hg => ?_, fun j' conn w hj => ?_, fun _ _ _ => ?_⟩
  · by_cases hgc : g = s.conns + 1
    · subst hgc
      simp at hg
    · simp only [Function.update_of_ne hgc] at hg ⊢
      exact h.first g hg
  · by_cases hgc : g = s.conns + 1
    · subst hgc
      simp
    · simp only [Function.update_of_ne hgc] at hg ⊢
      exact h.begun g hg
  · have hjj : j' ≠ j := by
      rintro rfl
      simp at hj
    simp only [Function.update_of_ne hjj] at hj
    have htw := h.tuple j' conn w hj
    have hold := htw.old
    refine ⟨htw.frame, hold.trans (Nat.le_succ _), htw.suffix, htw.unsent, ?_, fun _ hc => ?_⟩
    · simp only [Function.update_of_ne (show conn ≠ s.conns + 1 by omega)]
      exact htw.sent
    · change conn = s.conns + 1 at hc
      omega
  · exact ⟨j, by simp [ConnectorPc.Opening]⟩

theorem step (h : Opened s) (hs : Shape s) {e : Event} (hC : SendsFirst s e) (hr : Rule s e s') :
    Opened s' := by
  have hm := moves hr
  cases hr with
  | @pushPeer t k d w hw =>
    have hpush : Resumed s (s.accept d (w.rest.take k)) (some t) :=
      (Resumed.refl s _).setWay_same d rfl
    cases t with
    | relay d' => exact h.keep hs (hpush.setWay _) fun j hj => by cases hj
    | reader i => exact h.keep hs (hpush.setReader _) fun j hj => by cases hj
    | connector j => cases hw
    | detector k => cases hw
  | pushLink hw _ hg hc hb h0 hk =>
    exact h.pushLink hs hw hg hc hb h0 hk (hC (by rw [hw]; simp))
  | issueWrite hw hi => exact h.issueWrite hs hw hi
  | connected => exact h.connected
  | @connectFailed j hpc =>
    refine h.keep hs ((Resumed.refl s (some (.connector j))).setConnector _) fun j' hj => ?_
    cases hj
    exact ⟨by simp [Session.setConnector], fun ho => by rw [hpc] at ho; cases ho⟩
  | @retry j hpc =>
    refine h.keep hs (Edits.connectLoop hpc).resumed fun j' hj => ?_
    cases hj
    refine ⟨?_, fun ho => by rw [hpc] at ho; exact ho.elim⟩
    exact connectLoop_ind (P := fun s' => ∀ conn w, s'.connectors j ≠ .fourTuple conn w)
      (fun _ => by simp [Session.setConnector]) fun _ => by simp [asyncConnect]
  | @wroteTuple j conn w hpc hf =>
    refine h.keep hs (Edits.superviseProcess hpc hf).resumed fun j' hj => ?_
    cases hj
    refine ⟨?_, fun ho => ?_⟩
    · simp [superviseProcess_connectors]
    · rw [hpc] at ho
      have hfr := (h.tuple j conn w hpc).frame
      rw [← ho.2, hf.2] at hfr
      exact absurd hfr.symm (tuple_ne_nil s)
  | @tupleFailed j conn w hpc hf =>
    have hbreak : Edits (.connector j) s (s.breakLink w) := .breakLink (by rw [linkWrite, hpc]; rfl)
    refine h.keep hs (hbreak.resumed.setConnector _) fun j' hj => ?_
    cases hj
    refine ⟨by simp [Session.setConnector], fun ho hc => ?_⟩
    rw [hpc] at ho
    obtain ⟨rfl, hr⟩ := ho
    have htw := h.tuple j _ w hpc
    rcases htw.live hr rfl with hl | hn
    · simp only [link, Session.setConnector, Session.breakLink, if_pos hl, (htw.unsent hr).1,
        Function.update_self]
    · have hsock : (s.breakLink w).proxyProcessSocket = s.proxyProcessSocket :=
        breakLink_ind (P := fun s' => s'.proxyProcessSocket = s.proxyProcessSocket) (fun _ => rfl)
          fun _ => rfl
      exact absurd (hsock.symm.trans hc) hn
  | connect hpc => exact h.connect hpc
  | _ => cases hm with | code hm => exact h.keep hs hm fun j hj => by cases hj

end Opened

/-! ## Nobody else writes -/

section

variable {s s' : Session} {e : Event}

/-- A connector that is resumed sends its four tuple on, or is done with it; only the one
    that is connected starts to send one. -/
theorem fourTuple_of_own (hr : Rule s e s') {j conn : ℕ} {w' : LinkWrite}
    (he : e.tid = some (.connector j)) (hj : s'.connectors j = .fourTuple conn w') :
    s.connectors j = .connecting true ∧ conn = s.conns ∨
      ∃ w, s.connectors j = .fourTuple conn w ∧ w'.frame = w.frame ∧
        ∃ k, w'.rest = w.rest.drop k := by
  have hlink : ∀ {w v : LinkWrite}, s.linkWrite (.connector j) = some w →
      (s.connectors j).setLinkWrite v = .fourTuple conn w' →
      v = w' ∧ s.connectors j = .fourTuple conn w := by
    intro w v hw hv
    simp only [linkWrite] at hw
    cases hpc : s.connectors j <;> rw [hpc] at hw hv <;> cases hw
    cases hv
    exact ⟨rfl, rfl⟩
  cases hr with
  | pushPeer hw => cases he; cases hw
  | @pushLink t k w hw =>
    cases he
    simp only [setLinkWrite, Session.setConnector, Function.update_self] at hj
    obtain ⟨rfl, hpc⟩ := hlink hw hj
    exact .inr ⟨w, hpc, rfl, k, rfl⟩
  | @issueWrite t w hw =>
    cases he
    simp only [setLinkWrite, Session.setConnector, Function.update_self] at hj
    obtain ⟨rfl, hpc⟩ := hlink hw hj
    exact .inr ⟨w, hpc, rfl, 0, rfl⟩
  | connected hpc =>
    cases he
    simp only [fourTuple2process, Session.setConnector, Function.update_self,
      ConnectorPc.fourTuple.injEq] at hj
    exact .inl ⟨hpc, hj.1.symm⟩
  | connectFailed | tupleFailed | connect => cases he; simp [Session.setConnector] at hj
  | retry =>
    cases he
    revert hj
    exact connectLoop_ind (P := fun s' => s'.connectors j = _ → _)
      (fun _ h => by simp [Session.setConnector] at h) fun _ h => by simp [asyncConnect] at h
  | wroteTuple => cases he; simp [superviseProcess_connectors] at hj
  | _ => cases he

theorem fourTuple_of_rule (hr : Rule s e s') {j conn : ℕ} {w' : LinkWrite}
    (hj : s'.connectors j = .fourTuple conn w') :
    s.connectors j = .connecting true ∧ conn = s.conns ∨
      ∃ w, s.connectors j = .fourTuple conn w ∧ w'.frame = w.frame ∧
        ∃ k, w'.rest = w.rest.drop k := by
  by_cases he : e.tid = some (.connector j)
  · exact fourTuple_of_own hr he hj
  · refine .inr ⟨w', ?_, rfl, 0, rfl⟩
    rcases connector_or_new hr he with h | ⟨-, h | h⟩
    · rw [← h, hj]
    · rw [h] at hj; cases hj
    · rw [h] at hj; cases hj

/-- Only the kernel connects a connector. -/
theorem connected_of_rule (hr : Rule s e s') (hc : s'.conns = s.conns) {j : ℕ}
    (hj : s'.connectors j = .connecting true) : s.connectors j = .connecting true := by
  by_cases he : e.tid = some (.connector j)
  · cases hr with
    | pushPeer hw => cases he; cases hw
    | pushLink hw | issueWrite hw =>
      cases he
      simp only [linkWrite] at hw
      cases hpc : s.connectors j <;> rw [hpc] at hw <;> cases hw
      simp [setLinkWrite, Session.setConnector, Session.sendLink, Session.setLink, hpc,
        ConnectorPc.setLinkWrite] at hj
    | connected | connectFailed | tupleFailed =>
      cases he
      simp [fourTuple2process, Session.setConnector] at hj
    | retry =>
      cases he
      revert hj
      exact connectLoop_ind (P := fun s' => s'.connectors j = _ → _)
        (fun _ h => by simp [Session.setConnector] at h) fun _ h => by simp [asyncConnect] at h
    | wroteTuple => cases he; simp [superviseProcess_connectors] at hj
    | connect => simp at hc
    | _ => cases he
  · rcases connector_or_new hr he with h | ⟨-, h | h⟩
    · rw [← h, hj]
    · rw [h] at hj; cases hj
    · rw [h] at hj; cases hj

theorem Opens.of_rule (hr : Rule s e s') (hc : s'.conns = s.conns) {t : Tid} (h : s.Opens t)
    {w : LinkWrite} (hw : s'.linkWrite t = some w) : s'.Opens t := by
  cases t with
  | connector j =>
    change (s.connectors j).Opens s.conns at h
    change (s'.connectors j).Opens s'.conns
    rw [linkWrite] at hw
    cases hj : s'.connectors j <;> rw [hj] at hw <;> cases hw
    rcases fourTuple_of_rule hr hj with ⟨hpc, -⟩ | ⟨w₀, hpc, -⟩
    · rw [hpc] at h; exact h.elim
    · rw [hpc] at h; exact h.trans hc.symm
  | _ => exact h.elim

/-- The four tuple of a connection is begun once. -/
theorem isOpened_of_rule (h : Opened s) (hs : Shape s) (hr : Rule s e s') (hc : s'.conns = s.conns)
    (ho : s.IsOpened) : s'.IsOpened := by
  intro j _ hj
  have hj₀ : (s.connectors j).Opening s.conns := by
    cases hpc : s'.connectors j with
    | connecting up =>
      rw [hpc] at hj
      cases hj
      rw [connected_of_rule hr hc hpc]
      rfl
    | fourTuple conn w =>
      rw [hpc] at hj
      obtain ⟨rfl, hrest⟩ := hj
      rcases fourTuple_of_rule hr hpc with ⟨hpc, -⟩ | ⟨w₀, hpc, hf, k, hk⟩
      · rw [hpc]; rfl
      · -- a part of the frame is not the frame
        rw [hpc]
        have hsuf := (h.tuple j _ w₀ hpc).suffix
        refine ⟨hc, hsuf.eq_of_length_le ?_⟩
        have := congrArg List.length hrest
        rw [hf, hk, List.length_drop] at this
        omega
    | waiting | done => rw [hpc] at hj; exact hj.elim
  exact ho j (hs.connector_lt hj₀.ne_done) hj₀

end

/-- While the four tuple of a connection is to come, what is under way there is the four
    tuple. -/
structure Waiting (s : Session) : Prop where
  old : ∀ t w, s.linkWrite t = some w → w.io ≠ .dead → w.gen ≤ s.conns
  tuple : s.Alive → ¬ s.IsOpened → ∀ t w, s.linkWrite t = some w → w.io ≠ .dead →
    w.gen = s.conns → s.Opens t

namespace Waiting

variable {s s' : Session} {e : Event}

theorem init (c : Conf) : Waiting (Session.init c) where
  old t w hw := by rw [linkWrite_init] at hw; cases hw
  tuple _ _ t w hw := by rw [linkWrite_init] at hw; cases hw

theorem step (h : Waiting s) (hs : Shape s) (ho : Opened s) (hC : WaitsForTuple s e)
    (hr : Rule s e s') : Waiting s' := by
  have hold : ∀ t w, s'.linkWrite t = some w → w.io ≠ .dead → w.gen ≤ s.conns :=
    fun t w hw hd => gen_le_of_rule h.old hr hw hd
  rcases alive_of_rule hr with ⟨hc, ha⟩ | hc
  · refine ⟨fun t w hw hd => (hold t w hw hd).trans hc.ge, fun ha' hno t w hw hd hg => ?_⟩
    have hno₀ : ¬ s.IsOpened := fun hn => hno (isOpened_of_rule ho hs hr hc hn)
    cases wrote_of_rule hr hw hd with
    | kept hw₀ => exact Opens.of_rule hr hc (h.tuple (ha ha') hno₀ t w hw₀ hd (hg.trans hc)) hw
    | @sent k w₀ he hw₀ hl heq =>
      subst heq
      exact Opens.of_rule hr hc (h.tuple (ha ha') hno₀ t w₀ hw₀ (by simp [hl]) (hg.trans hc)) hw
    | issued hi =>
      by_cases hconn : ∃ j, e = .complete (.connector j)
      · -- `connect_process` starts to send the four tuple
        obtain ⟨j, rfl⟩ := hconn
        simp only [issues] at hi
        split at hi <;> cases hi
        rename_i hpc
        rw [linkWrite] at hw
        cases hj : s'.connectors j <;> rw [hj] at hw <;> cases hw
        rcases fourTuple_of_rule hr hj with ⟨-, rfl⟩ | ⟨w₀, hpc', -⟩
        · show (s'.connectors j).Opens s'.conns
          rw [hj]
          exact hc.symm
        · rw [hpc] at hpc'; cases hpc'
      · refine Opens.of_rule hr hc ?_ hw
        cases e with
        | complete t' =>
          cases t' with
          | connector j => exact absurd ⟨j, rfl⟩ hconn
          | _ => exact hC (ha ha') hno₀ t hi
        | _ => exact hC (ha ha') hno₀ t hi
  · -- nothing is on its way on a new connection
    refine ⟨fun t w hw hd => (hold t w hw hd).trans (by omega), fun _ _ t w hw hd hg => ?_⟩
    have := hold t w hw hd
    omega

theorem sendsFirst (h : Waiting s) (hr : Rule s e s') : SendsFirst s e := by
  cases hr with
  | @pushLink t k w hw hi hg hs hb =>
    intro _
    by_cases ho : s.IsOpened
    · exact .inr ho
    · exact .inl (h.tuple ⟨hs, hb⟩ ho t w hw (by simp [hi]) hg)
  | @pushPeer t k d w hw => exact fun hn => absurd (linkWrite_of_peerWrite hw) hn
  | _ => trivial

end Waiting

/-- **The four tuple opens every connection**, when nobody else issues a write on a
    connection whose four tuple is still to come. -/
theorem tupleFirst_of_waits {c : Conf} {s : Session}
    (h : Reach Session.step WaitsForTuple (Session.init c) s) : s.TupleFirst := by
  have hi : Shape s ∧ Opened s ∧ Waiting s := h.inv (I := fun s => Shape s ∧ Opened s ∧ Waiting s)
    ⟨Shape.init c, Opened.init c, Waiting.init c⟩ fun s e s' ⟨hs, ho, hw⟩ hC he =>
      have hr := rule_of_step he
      ⟨hs.step hr, ho.step hs (hw.sendsFirst hr) hr, hw.step hs ho hC hr⟩
  exact hi.2.1.first

/-- The read was pending when the first connection was lost, and completes after the four
    tuple of the second one was begun. -/
theorem tupleFirst_reconnected : ∃ s : Session, s.conns = 2 ∧ s.link.begun.length = 2 ∧
    s.TupleFirst := by
  obtain ⟨s, hs, hp⟩ := exists_runIf Session.step WaitsForTuple
    (Session.init (localConf true))
    (firstUp ++ [.fail (.reader 0), .connect 1, .complete (.connector 1),
      .push (.connector 1) 89, .read .req (.data [2]), .push (.relay .req) 6])
    (fun s => s.conns == 2 && s.link.begun.length == 2) (by decide +kernel)
  simp only [Bool.and_eq_true, beq_iff_eq] at hp
  exact ⟨s, hp.1, hp.2, tupleFirst_of_waits hs⟩

/-- The read was pending when the first connection was lost, and completes after the kernel
    has made the second one: its frame comes first. -/
theorem not_tupleFirst : ¬ ∀ (c : Conf) (s : Session),
    Reach Session.step (fun _ _ => True) (Session.init c) s → s.TupleFirst := by
  intro h
  obtain ⟨s, hs, hp⟩ := exists_run Session.step (fun _ _ => True)
    (Session.init (localConf true))
    (firstUp ++ [.fail (.reader 0), .connect 1, .read .req (.data [2]),
      .push (.relay .req) 6])
    (fun s => (s.links 2).begun.head? == some (frame .fromClientToServer [2]) &&
      (s.links 2).sent.length == 6 && s.tuple == frame .fourTuple localText)
    (fun _ _ _ => trivial) (by decide +kernel)
  simp only [Bool.and_eq_true, beq_iff_eq] at hp
  obtain ⟨⟨hbegun, hsent⟩, htuple⟩ := hp
  have hfirst := (h _ s hs 2 (by intro hn; rw [hn] at hsent; cases hsent)).1
  rw [hbegun, htuple] at hfirst
  exact absurd hfirst (by decide +kernel)

end CppProxy
