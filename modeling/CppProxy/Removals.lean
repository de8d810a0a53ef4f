/-
  cpp_proxy — what is taken off the queues.

  A release and a flush select what they write before they wait for the write,
  and take packets off the queue after it.  In between the relay may append
  packets, and other coroutines may release or flush the same queue.

  * `ReleasesAlone`, `Session.SelectedStays`: while a reader releases packets,
    nobody else takes any off that queue, so those it selected stay in front
    (`selectedStays_of_releasesAlone`);
  * `FlushesAlone`, `Session.FlushesExactly`: while a queue is flushed nothing is
    appended to it and nothing taken off, so a flush removes what it wrote
    (`flushesExactly_of_flushesAlone`).
-/
import CppProxy.Moves
import CppProxy.Totals

namespace CppProxy

open Session Runs

/-! ## Who takes packets off -/

/-- A relay reads data for the process. -/
def RelayPc.ReadsProcess : RelayPc → Prop
  | readProcess _ => True
  | _ => False

instance : ∀ pc : RelayPc, Decidable pc.ReadsProcess
  | .readProcess _ => inferInstanceAs (Decidable True)
  | .notify _ | .readDirect _ | .writeDirect _ | .writeProcess _ | .flush _ _ | .done =>
    inferInstanceAs (Decidable False)

/-- A reader releases packets of direction `d`, or a part of one. -/
def ReaderPc.Releases (d : Dir) : ReaderPc → Prop
  | release d' count next _ => d' = d ∧ (count ≠ 0 ∨ next ≠ 0)
  | _ => False

instance (d : Dir) : ∀ pc : ReaderPc, Decidable (pc.Releases d)
  | .release _ _ _ _ => inferInstanceAs (Decidable (_ ∧ _))
  | .readHead _ | .readBody _ _ | .writeNew _ _ _ _ | .flushServer _ _ | .flushClient _ _ | .done =>
    inferInstanceAs (Decidable False)

namespace Session

variable (s : Session)

/-- Coroutine `t` is writing what it takes off the queue of direction `d` then. -/
def Removes (d : Dir) : Tid → Prop
  | .relay d' => s.flushing d (.relay d') ≠ none
  | .reader i => s.flushing d (.reader i) ≠ none ∨ (s.readers i).pc.Releases d
  | .connector _ | .detector _ => False

/-- No reader but `t` releases packets of direction `d`. -/
def NoneElseReleases (d : Dir) (t : Tid) : Prop :=
  ∀ i < s.nReaders, t ≠ .reader i → ¬ (s.readers i).pc.Releases d

/-- No coroutine but `t` flushes the queue of direction `d`. -/
def NoneElseFlushes (d : Dir) (t : Tid) : Prop :=
  (t ≠ .relay d → s.flushing d (.relay d) = none) ∧
    ∀ i < s.nReaders, t ≠ .reader i → s.flushing d (.reader i) = none

instance (d : Dir) : ∀ t, Decidable (s.Removes d t)
  | .relay _ => inferInstanceAs (Decidable (_ ≠ _))
  | .reader _ => inferInstanceAs (Decidable (_ ∨ _))
  | .connector _ | .detector _ => inferInstanceAs (Decidable False)
instance (d : Dir) (t : Tid) : Decidable (s.NoneElseReleases d t) :=
  inferInstanceAs (Decidable (∀ i < s.nReaders, _))
instance (d : Dir) (t : Tid) : Decidable (s.NoneElseFlushes d t) :=
  inferInstanceAs (Decidable (_ ∧ _))

end Session

/-- Packets are taken off a queue only while no other reader releases some of it. -/
def ReleasesAlone (s : Session) : Event → Prop
  | .complete t => ∀ d, s.Removes d t → s.NoneElseReleases d t
  | _ => True

/-- Packets are appended to a queue, or taken off it, only while no other coroutine
    flushes it. -/
def FlushesAlone (s : Session) : Event → Prop
  | .read d (.data _) => (s.way d).relay.ReadsProcess → s.NoneElseFlushes d (.relay d)
  | .complete t => ∀ d, s.Removes d t → s.NoneElseFlushes d t
  | _ => True

instance (s : Session) : ∀ e, Decidable (ReleasesAlone s e)
  | .complete _ => inferInstanceAs (Decidable (∀ _ : Dir, _ → _))
  | .read _ _ | .push _ _ | .pull _ _ | .issue _ | .fail _ | .connect _ | .expire _
  | .respond _ _ => inferInstanceAs (Decidable True)

instance (s : Session) : ∀ e, Decidable (FlushesAlone s e)
  | .read _ (.data _) => inferInstanceAs (Decidable (_ → _))
  | .complete _ => inferInstanceAs (Decidable (∀ _ : Dir, _ → _))
  | .read _ .eof | .read _ .error | .push _ _ | .pull _ _ | .issue _ | .fail _ | .connect _
  | .expire _ | .respond _ _ => inferInstanceAs (Decidable True)

/-! ## Releases -/

/-- The packets of a queue that a release with these counts is about. -/
def selected (stored : List Packet) (count : ℕ) (next : Int32) : List Packet :=
  stored.take (if next = 0 then count else count + 1)

/-- `clear_handled_packet` never meets an empty deque while what was selected is in
    front. -/
theorem clearHandledPacket_selected {stored stored' : List Packet} {count : ℕ} {next : Int32}
    (h : (clearHandledPacket stored count next).isSome)
    (hp : selected stored count next <+: stored') :
    (clearHandledPacket stored' count next).isSome := by
  have hlen := hp.length_le
  unfold selected at hlen
  rw [List.length_take] at hlen
  unfold clearHandledPacket at h ⊢
  by_cases hc : count ≤ stored.length
  · by_cases hn : next = 0
    · rw [if_pos hn, Nat.min_eq_left hc] at hlen
      rw [if_pos hlen, if_pos hn]
      rfl
    · rw [if_pos hc, if_neg hn] at h
      rw [if_neg hn] at hlen
      have hlt : count < stored.length := by
        by_contra hge
        rw [List.drop_eq_nil_of_le (by omega)] at h
        cases h
      rw [Nat.min_eq_left (by omega)] at hlen
      rw [if_pos (by omega), if_neg hn]
      cases hd : stored'.drop count with
      | nil => rw [List.drop_eq_nil_iff] at hd; omega
      | cons p rest => rfl
  · rw [if_neg hc] at h
    cases h

/-- `prepare_transfer_packet` selects packets that are there. -/
theorem clearHandledPacket_prepared (head : ResponseHead) (stored : List Packet)
    (handled : UInt64) : (clearHandledPacket stored
      (prepareTransferPacket head stored handled).handledPkgCount
      (prepareTransferPacket head stored handled).nextPkgUsedSize).isSome := by
  induction stored generalizing handled with
  | nil => rfl
  | cons p stored ih =>
    simp only [prepareTransferPacket]
    split
    · split
      · simp [clearHandledPacket, *]
      · simp [clearHandledPacket, *]
    · rw [clearHandledPacket_succ]
      exact ih _

/-- Reader `i` has been releasing packets of direction `d`, which it selected while the
    queue was `stored`: they are still in front, and `clear_handled_packet` finds them. -/
def Session.SelectedStays (s : Session) (i : ℕ) (d : Dir) (count : ℕ) (next : Int32)
    (stored : List Packet) : Prop :=
  (∃ w, (s.readers i).pc = .release d count next w) ∧
    selected stored count next <+: (s.way d).storedData ∧
      (clearHandledPacket (s.way d).storedData count next).isSome

/-- If reader `i` releases packets, they are in the queue. -/
def Session.Ready (s : Session) (i : ℕ) : Prop :=
  ∀ d count next w, (s.readers i).pc = .release d count next w →
    (clearHandledPacket (s.way d).storedData count next).isSome

namespace Ready

variable {s : Session} {i : ℕ}

theorem setReader (s : Session) (i : ℕ) {pc : ReaderPc}
    (hp : ∀ d count next w, pc ≠ .release d count next w) : (s.setReader i pc).Ready i := by
  intro d count next w h
  exact absurd (by simpa using h) (hp d count next w)

theorem readHead (s : Session) (i : ℕ) : (s.readHead i).Ready i :=
  setReader _ i (by simp)

theorem readerReconnect (s : Session) (i gen : ℕ) : (s.readerReconnect i gen).Ready i :=
  setReader _ i (by simp)

theorem readerFlushClient (s : Session) (i gen : ℕ) : (s.readerFlushClient i gen).Ready i :=
  readerFlushClient_ind (P := fun s' => s'.Ready i) (fun _ => readerReconnect _ i gen)
    fun _ => setReader _ i (by simp)

theorem actOnHead (s : Session) (i : ℕ) (d : Dir) (conn : ℕ) (head : ResponseHead) :
    (s.actOnHead i d conn head).Ready i := by
  refine actOnHead_ind (P := fun s' => s'.Ready i) (fun _ => setReader _ i (by simp)) fun _ => ?_
  intro d' count next w h
  simp only [releasing, Function.update_self, ReaderPc.release.injEq] at h
  obtain ⟨rfl, rfl, rfl, -⟩ := h
  simpa [releasing] using clearHandledPacket_prepared head (s.way d).storedData
    (s.way d).handledTotalPkgLen

theorem dispatch (s : Session) (i conn : ℕ) (head : ResponseHead) (buf : List Byte) :
    (s.dispatch i conn head buf).Ready i :=
  dispatch_ind (P := fun s' => s'.Ready i) (fun d _ => innerProxy_ind (P := fun s' => s'.Ready i)
    (fun _ => setReader _ i (by simp)) fun _ => actOnHead _ i d conn head) (readHead _ i)
    (readHead _ i)

/-- A reader that was resumed releases packets that `prepare_transfer_packet` selected. -/
theorem of_complete {s s' : Session} (hr : Rule s (.complete (.reader i)) s') : s'.Ready i := by
  cases hr with
  | gotHead => exact setReader _ i (by simp)
  | gotHeadOnly => exact dispatch s i _ _ _
  | gotBody => exact dispatch s i _ _ _
  | wroteNew => exact actOnHead s i _ _ _
  | released =>
    exact clearReleased_ind (P := fun s' => s'.Ready i) (fun _ _ => readHead _ i)
      fun _ => readHead _ i
  | flushedServer => exact readerFlushClient _ i _
  | flushedClient => exact readerReconnect _ i _

end Ready

/-- A reader that releases is not moved by others, and by the kernel only in its write. -/
theorem release_of_rule {s s' : Session} {e : Event} {i count : ℕ} {d : Dir} {next : Int32}
    {w : PeerWrite} (hs : Shape s) (hr : Rule s e s') (hc : ¬ e.Resumes (.reader i))
    (hpc : (s.readers i).pc = .release d count next w) :
    ∃ w', (s'.readers i).pc = .release d count next w' := by
  have hi : i < s.nReaders := hs.reader_lt (by rw [hpc]; simp)
  by_cases ht : e.tid = some (.reader i)
  · -- only the kernel can move it: it accepts a part of the write
    cases hr with
    | @pushPeer t k d' w' hw =>
      cases ht
      simp only [peerWrite, hpc, ReaderPc.peerWrite, Option.some.injEq, Prod.mk.injEq] at hw
      obtain ⟨rfl, rfl⟩ := hw
      refine ⟨{ w with rest := w.rest.drop k }, ?_⟩
      simp [setPeerWrite, accept, Session.setWay, hpc, ReaderPc.setPeerWrite]
    | pushLink hw => cases ht; cases hw
    | pull hr => cases ht; simp [linkRead, hpc, ReaderPc.linkRead] at hr
    | issueWrite hw => cases ht; cases hw
    | issueRead hr => cases ht; simp [linkRead, hpc, ReaderPc.linkRead] at hr
    | _ => cases ht <;> exact absurd rfl hc
  · exact ⟨w, by rw [reader_of_other hr hi ht, hpc]⟩

theorem removes_of_flushing {s : Session} {d : Dir} {t : Tid} {data : List Byte}
    (h : s.flushing d t = some data) : s.Removes d t := by
  cases t with
  | relay d' => simp [Removes, h]
  | reader i => simp [Removes, h]
  | connector j => cases h
  | detector k => cases h

/-- The process has passed a byte of the client, and the reader has the response. -/
def passing : List Event :=
  firstUp ++ [.read .req (.data [2]), .push (.relay .req) 6, .complete (.relay .req),
    .respond 1 (.pass 0 1),
    .pull 0 16]

/-- Packets that are selected stay in front when nobody else takes any off the queue. -/
theorem selected_of_stored {s : Session} {e : Event} {i : ℕ} {d : Dir} {count : ℕ} {next : Int32}
    {w : PeerWrite} {stored stored' : List Packet} (hs : Shape s)
    (hpc : (s.readers i).pc = .release d count next w) (hC : ReleasesAlone s e)
    (hc : ¬ e.Resumes (.reader i)) (hst : s.Stored d e stored')
    (hp : selected stored count next <+: (s.way d).storedData) :
    selected stored count next <+: stored' := by
  by_cases hsel : count = 0 ∧ next = 0
  · simp [selected, hsel]
  · have hrel : (s.readers i).pc.Releases d := by
      rw [hpc]
      exact ⟨rfl, by by_contra hn; exact hsel (by simpa [not_or] using hn)⟩
    have hi : i < s.nReaders := hs.reader_lt (by rw [hpc]; simp)
    cases hst with
    | keep => exact hp
    | store => exact hp.trans (List.prefix_append _ _)
    | @flushed t data hf =>
      have ht : t ≠ .reader i := by
        rintro rfl
        simp [flushing, hpc, ReaderPc.flushing] at hf
      exact absurd hrel (hC d (removes_of_flushing hf) i hi ht)
    | @released i' count' next' w' kept hpc' hk =>
      have hii : Tid.reader i' ≠ .reader i := hc
      by_cases hz : count' = 0 ∧ next' = 0
      · obtain ⟨rfl, rfl⟩ := hz
        simp [clearHandledPacket] at hk
        rwa [← hk]
      · have hrel' : (s.readers i').pc.Releases d := by
          rw [hpc']
          exact ⟨rfl, by by_contra hn; exact hz (by simpa [not_or] using hn)⟩
        exact absurd hrel (hC d (.inr hrel') i hi hii)

/-- **Selected packets stay in front**, from the step in which a reader selects them to its
    next resumption, while nobody else takes packets off the queue. -/
theorem selectedStays_of_releasesAlone {c : Conf} {s₀ s₁ s : Session} {i : ℕ} {d : Dir}
    {count : ℕ} {next : Int32} {w : PeerWrite}
    (h₀ : Reach Session.step ReleasesAlone (Session.init c) s₀)
    (hstart : s₀.step (.complete (.reader i)) = some s₁)
    (hpc : (s₁.readers i).pc = .release d count next w)
    (hrun : Reach Session.step (fun s e => ReleasesAlone s e ∧ ¬ e.Resumes (.reader i)) s₁ s) :
    s.SelectedStays i d count next (s₁.way d).storedData := by
  have hs₁ : Shape s₁ := (shape h₀).step (rule_of_step hstart)
  have hready := Ready.of_complete (rule_of_step hstart) d count next w hpc
  have hi : Shape s ∧ s.SelectedStays i d count next (s₁.way d).storedData := by
    refine hrun.inv (I := fun s => Shape s ∧ s.SelectedStays i d count next (s₁.way d).storedData)
      ⟨hs₁, ⟨w, hpc⟩, List.take_prefix _ _, hready⟩ ?_
    rintro s e s' ⟨hs, ⟨w', hpc'⟩, hp, -⟩ ⟨hC, hne⟩ he
    have hr := rule_of_step he
    have hp' := selected_of_stored hs hpc' hC hne (stored_of_rule hr d).1 hp
    exact ⟨hs.step hr, release_of_rule hs hr hne hpc', hp', clearHandledPacket_selected hready hp'⟩
  exact hi.2

/-- The client sends a byte while the process has passed the one before: it is appended
    behind the selected packet. -/
theorem selectedStays_appended : ∃ s : Session, (s.way .req).storedData.length = 2 ∧
    s.SelectedStays 0 .req 1 0 [Packet.ofData [2]] := by
  obtain ⟨s₀, h₀, hp⟩ := exists_runIf Session.step ReleasesAlone
    (Session.init (localConf true)) passing
    (fun s₀ => (s₀.step (.complete (.reader 0))).any fun s₁ =>
      (s₁.readers 0).pc == .release .req 1 0 ⟨true, [2], [2]⟩ &&
        (s₁.way .req).storedData == [Packet.ofData [2]] &&
        (runIf Session.step (fun s e => ReleasesAlone s e ∧ ¬ e.Resumes (.reader 0)) s₁
          [.read .req (.data [3])]).any fun s => (s.way .req).storedData.length == 2)
    (by decide +kernel)
  simp only [Option.any_eq_true, Bool.and_eq_true, beq_iff_eq] at hp
  obtain ⟨s₁, hstart, ⟨hpc, hst⟩, s, hrun, hlen⟩ := hp
  refine ⟨s, hlen, ?_⟩
  rw [← hst]
  exact selectedStays_of_releasesAlone h₀ hstart hpc (reach_runIf hrun)

/-- The relay, whose write to the process fails, flushes the queue while the reader
    writes what it selected: the queue is empty when the reader clears it. -/
theorem not_selectedStays : ¬ ∀ (c : Conf) (s₀ s₁ s : Session) (i : ℕ) (d : Dir) (count : ℕ)
    (next : Int32) (w : PeerWrite),
    Reach Session.step (fun s e => Truthful s e ∧ PassesOnly s e) (Session.init c) s₀ →
      s₀.step (.complete (.reader i)) = some s₁ → (s₁.readers i).pc = .release d count next w →
        Reach Session.step (fun s e => (Truthful s e ∧ PassesOnly s e) ∧
          ¬ e.Resumes (.reader i)) s₁ s →
            s.SelectedStays i d count next (s₁.way d).storedData := by
  intro h
  obtain ⟨s₀, h₀, hp⟩ := exists_runIf Session.step
    (fun s e => Truthful s e ∧ PassesOnly s e)
    (Session.init (localConf true)) passing
    (fun s₀ => (s₀.step (.complete (.reader 0))).any fun s₁ =>
      (s₁.readers 0).pc == .release .req 1 0 ⟨true, [2], [2]⟩ &&
        (runIf Session.step
          (fun s e => (Truthful s e ∧ PassesOnly s e) ∧ ¬ e.Resumes (.reader 0)) s₁
          [.read .req (.data [3]), .fail (.relay .req), .push (.relay .req) 2,
            .complete (.relay .req)]).any fun s =>
              (clearHandledPacket (s.way .req).storedData 1 0).isNone)
    (by decide +kernel)
  simp only [Option.any_eq_true, Bool.and_eq_true, beq_iff_eq] at hp
  obtain ⟨s₁, hstart, hpc, s, hrun, hnone⟩ := hp
  have hstay := h _ s₀ s₁ s 0 .req 1 0 _ h₀ hstart hpc (reach_runIf hrun)
  have hsome := hstay.2.2
  rw [Option.isNone_iff_eq_none.1 hnone] at hsome
  cases hsome

/-! ## Flushes -/

/-- A flush that succeeds takes off the queue the packets whose bytes it wrote, and
    leaves what was appended after them. -/
def Session.FlushesExactly (s : Session) : Prop :=
  ∀ (d : Dir) (t : Tid) (data : List Byte) (s' : Session), s.flushing d t = some data →
    s.step (.complete t) = some s' → ∃ removed,
      (s.way d).storedData = removed ++ (s'.way d).storedData ∧ storedBytes removed = data

/-- Every flush writes what its queue holds. -/
structure Flushed (s : Session) : Prop where
  data : ∀ d t data, s.flushing d t = some data → data = storedBytes (s.way d).storedData

namespace Flushed

variable {s s' : Session}

theorem init (c : Conf) : Flushed (Session.init c) := by
  have hnone : ∀ d t, (Session.init c).flushing d t = none := by
    intro d t
    cases t with
    | relay d' => cases d <;> cases d' <;> rfl
    | _ => rfl
  exact ⟨fun d t data h => by rw [hnone] at h; cases h⟩

/-- Another flush goes on only if the queue stays as it is. -/
theorem stored_eq (hs : Shape s) {e : Event} (hC : FlushesAlone s e) {d : Dir} {t : Tid}
    {data : List Byte} {stored : List Packet} (hf : s.flushing d t = some data)
    (hne : e ≠ .complete t) (hst : s.Stored d e stored) : stored = (s.way d).storedData := by
  have hnone : ∀ t', t' ≠ t → ¬ s.NoneElseFlushes d t' := by
    intro t' ht hn
    cases t with
    | relay d' =>
      have hd : d' = d := by
        by_contra hd
        simp [flushing, hd] at hf
      subst hd
      rw [hn.1 ht] at hf
      cases hf
    | reader i =>
      have hi : i < s.nReaders := hs.reader_lt fun hd => by
        simp [flushing, hd, ReaderPc.flushing] at hf
      rw [hn.2 i hi ht] at hf
      cases hf
    | connector j => cases hf
    | detector k => cases hf
  cases hst with
  | keep => rfl
  | @store live bytes hpc =>
    have ht : Tid.relay d ≠ t := by
      rintro rfl
      simp [flushing, hpc, RelayPc.flushing] at hf
    exact absurd (hC (by rw [hpc]; trivial)) (hnone _ ht)
  | @flushed t' data' hf' =>
    have ht : t' ≠ t := fun h => hne (by rw [h])
    exact absurd (hC d (removes_of_flushing hf')) (hnone t' ht)
  | @released i count next w kept hpc hk =>
    have ht : Tid.reader i ≠ t := fun h => hne (by rw [h])
    by_cases hz : count = 0 ∧ next = 0
    · obtain ⟨rfl, rfl⟩ := hz
      simp [clearHandledPacket] at hk
      exact hk.symm
    · have hrel : (s.readers i).pc.Releases d := by
        rw [hpc]
        exact ⟨rfl, by by_contra hn; exact hz (by simpa [not_or] using hn)⟩
      exact absurd (hC d (.inr hrel)) (hnone _ ht)

theorem step (h : Flushed s) (hs : Shape s) {e : Event} (hC : FlushesAlone s e)
    (hr : Rule s e s') : Flushed s' := by
  refine ⟨fun d t data hf => ?_⟩
  obtain ⟨hst, hfl⟩ := stored_of_rule hr d
  rcases hfl t data hf with ⟨hf, hne⟩ | hd
  · rw [stored_eq hs hC hf hne hst]
    exact h.data d t data hf
  · exact hd

end Flushed

/-- A coroutine flushes one queue. -/
theorem flushing_dir {s : Session} {d d' : Dir} {t : Tid} {data data' : List Byte}
    (h : s.flushing d t = some data) (h' : s.flushing d' t = some data') : d = d' := by
  cases t with
  | relay d₁ =>
    simp only [flushing, Option.ite_none_right_eq_some] at h h'
    exact h.1.symm.trans h'.1
  | reader i =>
    simp only [flushing] at h h'
    cases hpc : (s.readers i).pc <;>
      simp only [hpc, ReaderPc.flushing, Option.ite_none_right_eq_some, reduceCtorEq] at h h'
    all_goals exact h.1.trans h'.1.symm
  | _ => cases h

/-- A flush that is done has cleared the queue. -/
theorem cleared_of_flushing {s s' : Session} {d : Dir} {t : Tid} {data : List Byte}
    (hf : s.flushing d t = some data) (hr : Rule s (.complete t) s') :
    (s'.way d).storedData = [] := by
  generalize he : Event.complete t = e at hr
  cases updated_of_rule hr with
  | code ht hn h =>
    subst he
    cases ht
    rw [hn rfl d] at hf
    cases hf
  | flushed hf' ho h =>
    cases he
    obtain rfl := flushing_dir hf hf'
    rw [h.same.stored]
    simp [Session.clearFlushed, setStored]
  | cleared hpc | overrun hpc =>
    cases he
    simp [flushing, hpc, ReaderPc.flushing] at hf
  | @release i d' _ _ _ _ _ hh =>
    cases he
    rw [flushing] at hf
    cases hpc : (s.readers i).pc <;> simp [hpc, ReaderPc.acting, ReaderPc.flushing] at hh hf
  | connected => cases he; cases hf
  | _ => cases he

/-- **A flush removes what it wrote** while nothing else happens to its queue. -/
theorem flushesExactly_of_flushesAlone {c : Conf} {s : Session}
    (h : Reach Session.step FlushesAlone (Session.init c) s) : s.FlushesExactly := by
  have hi : Shape s ∧ Flushed s := h.inv (I := fun s => Shape s ∧ Flushed s)
    ⟨Shape.init c, Flushed.init c⟩ fun _ _ _ hs hC he =>
      ⟨hs.1.step (rule_of_step he), hs.2.step hs.1 hC (rule_of_step he)⟩
  intro d t data s' hf he
  refine ⟨(s.way d).storedData, ?_, (hi.2.data d t data hf).symm⟩
  rw [cleared_of_flushing hf (rule_of_step he), List.append_nil]

/-- The process takes a byte and fails: the reader flushes the queue. -/
def failing : List Event :=
  firstUp ++ [.read .req (.data [2]), .push (.relay .req) 6, .complete (.relay .req),
    .fail (.reader 0)]

/-- The reader flushes one byte, and takes one packet off. -/
theorem flushesExactly_alone : ∃ (s : Session) (s' : Session),
    s.flushing .req (.reader 0) = some [2] ∧ s.step (.complete (.reader 0)) = some s' ∧
      s.FlushesExactly := by
  obtain ⟨s, hs, hp⟩ := exists_runIf Session.step FlushesAlone
    (Session.init (localConf true)) (failing ++ [.push (.reader 0) 1])
    (fun s => (s.flushing .req (.reader 0) == some [2]) &&
      (s.step (.complete (.reader 0))).isSome)
    (by decide +kernel)
  simp only [Bool.and_eq_true, beq_iff_eq, Option.isSome_iff_exists] at hp
  obtain ⟨hf, s', he⟩ := hp
  exact ⟨s, s', hf, he, flushesExactly_of_flushesAlone hs⟩

/-- The client sends a byte while the reader flushes the one before: it is taken off the
    queue and was never written. -/
theorem not_flushesExactly : ¬ ∀ (c : Conf) (s : Session),
    Reach Session.step (fun s e => Truthful s e ∧ PassesOnly s e) (Session.init c) s →
      s.FlushesExactly := by
  intro h
  obtain ⟨s, hs, hp⟩ := exists_runIf Session.step
    (fun s e => Truthful s e ∧ PassesOnly s e)
    (Session.init (localConf true))
    (failing ++ [.read .req (.data [3]), .push (.reader 0) 1])
    (fun s => (s.flushing .req (.reader 0) == some [2]) &&
      (storedBytes (s.way .req).storedData == [2, 3]) &&
      (s.step (.complete (.reader 0))).any fun s' => (s'.way .req).storedData == [])
    (by decide +kernel)
  simp only [Bool.and_eq_true, beq_iff_eq, Option.any_eq_true] at hp
  obtain ⟨⟨hf, hst⟩, s', he, hnil⟩ := hp
  obtain ⟨removed, heq, hdata⟩ := h _ s hs .req (.reader 0) [2] s' hf he
  rw [heq, hnil, List.append_nil, hdata] at hst
  cases hst

end CppProxy
