/-
  cpp_proxy — runs without undefined behaviour.

  `clear_handled_packet` pops packets without looking whether they are there, and
  `prepare_transfer_packet` subtracts the counter from a total that may be below it.  The
  program goes on after neither: the deque reports a size of `size_t(-1)`, and the next
  `reserve` throws.

  * `ActsInside`: every total that is acted on cuts its queue inside a packet;
  * `StaysDefined`: besides, packets are taken off a queue only while no other reader
    releases some of it;
  * `Defined`: then the packets that a reader has released are in the queue;
  * `defined_of_run`: nothing undefined happens in such a run.
-/
import CppProxy.Edits
import CppProxy.Removals

namespace CppProxy

open Session Runs

/-- The total of a head that a reader acts on cuts its queue inside a packet. -/
def ActsInside (s : Session) : Event → Prop
  | .complete t => ∀ d, ∀ head ∈ s.acting d t, head.act ≠ Action.block.code →
      CutInside head.handledTotalPkgLen (s.way d).handledTotalPkgLen (s.way d).storedData
  | _ => True

instance (s : Session) : ∀ e, Decidable (ActsInside s e)
  | .complete t => inferInstanceAs (Decidable (∀ d, ∀ head ∈ s.acting d t, _ → _))
  | .read _ _ | .push _ _ | .pull _ _ | .issue _ | .fail _ | .connect _ | .expire _
  | .respond _ _ => inferInstanceAs (Decidable True)

/-- The steps after which nothing undefined has happened. -/
def StaysDefined (s : Session) (e : Event) : Prop := ReleasesAlone s e ∧ ActsInside s e

instance (s : Session) (e : Event) : Decidable (StaysDefined s e) :=
  inferInstanceAs (Decidable (_ ∧ _))

/-- Nothing undefined has happened, and what a reader has released is in the queue. -/
structure Defined (s : Session) : Prop where
  defined : s.undefined = false
  ready : ∀ i, s.Ready i

namespace Defined

variable {s s' : Session} {e : Event}

theorem init (c : Conf) : Defined (Session.init c) :=
  ⟨rfl, fun _ _ _ _ _ h => by cases h⟩

/-- A reader that is not resumed is releasing only if it was. -/
theorem release_before (hr : Rule s e s') {i : ℕ} (hc : ¬ e.Resumes (.reader i))
    {d : Dir} {count : ℕ} {next : Int32} {w : PeerWrite}
    (hpc : (s'.readers i).pc = .release d count next w) :
    ∃ w₀, (s.readers i).pc = .release d count next w₀ := by
  by_cases ht : e.tid = some (.reader i)
  · cases hr with
    | @pushPeer t k d' w' hw =>
      cases ht
      simp only [setPeerWrite, setReader_readers, Function.update_self] at hpc
      change (s.readers i).pc.setPeerWrite _ = _ at hpc
      cases hp : (s.readers i).pc <;> rw [hp] at hpc <;> cases hpc
      exact ⟨_, rfl⟩
    | pushLink hw => cases ht; cases hw
    | @pull i' k r hr =>
      cases ht
      simp only [setLinkRead, setReader_readers, Function.update_self] at hpc
      change (s.readers i).pc.setLinkRead _ = _ at hpc
      rw [linkRead] at hr
      cases hp : (s.readers i).pc <;> rw [hp] at hpc hr <;> cases hr <;> cases hpc
    | respond => cases ht
    | _ => cases ht <;> exact absurd rfl hc
  · rcases reader_or_new hr ht with heq | ⟨-, r, heq⟩
    · exact ⟨w, heq ▸ hpc⟩
    · rw [heq] at hpc
      cases hpc

/-- A reader that is resumed releases what is in the queue. -/
theorem ready_of_resumed (hr : Rule s e s') {i : ℕ} (hc : e.Resumes (.reader i)) : s'.Ready i := by
  cases hr with
  | @issueRead i' r hr =>
    cases hc
    intro d count next w hpc
    simp only [setLinkRead, setReader_readers, Function.update_self, noteRead_readers] at hpc
    rw [linkRead] at hr
    cases hp : (s.readers i).pc <;> rw [hp] at hpc hr <;> cases hr <;> cases hpc
  | gotHead => cases hc; exact Ready.of_complete (.gotHead ‹_› ‹_› ‹_›)
  | gotHeadOnly => cases hc; exact Ready.dispatch s i _ _ _
  | gotBody => cases hc; exact Ready.dispatch s i _ _ _
  | wroteNew => cases hc; exact Ready.actOnHead s i _ _ _
  | released => cases hc; exact Ready.of_complete (.released ‹_› ‹_›)
  | flushedServer => cases hc; exact Ready.readerFlushClient _ i _
  | flushedClient => cases hc; exact Ready.readerReconnect _ i _
  | readFailed =>
    cases hc
    refine readerFailed_ind (P := fun x => x.Ready i) (fun _ => Ready.setReader _ i (by simp))
      fun _ => ?_
    exact readerFlushServer_ind (P := fun x => x.Ready i)
      (fun _ => Ready.readerFlushClient _ i _) fun _ => Ready.setReader _ i (by simp)
  | readerWriteFailed => cases hc; exact Ready.setReader _ i (by simp)
  | flushServerFailed => cases hc; exact Ready.readerFlushClient _ i _
  | flushClientFailed => cases hc; exact Ready.readerReconnect _ i _
  | issueWrite hw => cases hc; cases hw
  | _ => cases hc

theorem step (h : Defined s) (hs : Shape s) (hC : StaysDefined s e) (hr : Rule s e s') :
    Defined s' := by
  refine ⟨?_, fun i => ?_⟩
  · cases updated_of_rule hr with
    | code _ _ hx => exact hx.same.undefined.trans h.defined
    | readEof hx | flushed _ _ hx | cleared _ _ hx => exact hx.same.undefined.trans h.defined
    | @overrun i d count next w _ hpc hk =>
      have := h.ready i d count next w hpc
      rw [hk] at this
      cases this
    | gotDirect => rw [writeDirect_eq]; exact h.defined
    | gotProcess => rw [writeProcess_eq]; exact h.defined
    | @pushPeer t | @pushLink t => cases t <;> exact h.defined
    | @release i d conn head s₁ _ h₁ hh hx =>
      obtain ⟨ha, rfl⟩ := hx
      have hin := hC.2 d head hh ha
      have hsame : s₁.way = s.way ∧ s₁.undefined = s.undefined := by
        rcases h₁ with rfl | rfl <;> exact ⟨rfl, rfl⟩
      simpa [releasing, hsame, hin] using h.defined
    | pull | connected | connect | respond => exact h.defined
  · by_cases hc : e.Resumes (.reader i)
    · exact ready_of_resumed hr hc
    · intro d count next w hpc
      obtain ⟨w₀, hpc₀⟩ := release_before hr hc hpc
      exact clearHandledPacket_selected (h.ready i d count next w₀ hpc₀)
        (selected_of_stored hs hpc₀ hC.1 hc (stored_of_rule hr d).1 (List.take_prefix _ _))

end Defined

/-- **Nothing undefined happens** while no two coroutines take packets off one queue and
    every total cuts its queue inside a packet. -/
theorem defined_of_run {c : Conf} {s : Session}
    (h : Reach Session.step StaysDefined (Session.init c) s) : s.undefined = false := by
  have hi : Shape s ∧ Defined s := h.inv (I := fun s => Shape s ∧ Defined s)
    ⟨Shape.init c, Defined.init c⟩ fun _ _ _ hI hC he =>
      have hr := rule_of_step he
      ⟨hI.1.step hr, hI.2.step hI.1 hC hr⟩
  exact hi.2.defined

end CppProxy
