/-
  cpp_proxy — the counters across reconnects.

  `connect_process` zeroes both counters, and the process counts the payloads of
  a connection from zero; the queues are not touched.  A packet that a failure
  path leaves in a queue is counted on the next connection as well, and shifts
  every acknowledgement by its length.

  * `Session.CountsFrames`: the counter and the queue of a direction make up
    what was framed to the connection;
  * `LeavesNothing`: when a connection comes up, the queues hold what was framed
    to it;
  * `Counted`: then they are made up in every state in which nothing is released or
    flushed (`Counted.countsFrames`).
-/
import CppProxy.Answers

namespace CppProxy

open Session Runs

/-- On an established connection, while nothing is released or flushed, the
    counter and the stored packets are as long as what was framed to it, and the
    stored packets are the last ones framed to it. -/
def Session.CountsFrames (s : Session) : Prop :=
  s.Steady → (∀ d i, (s.readers i).pc.releasing d = none) → ∀ d : Dir,
    (s.way d).handledTotalPkgLen.toNat + storedLen (s.way d).storedData =
        (s.link.frames d).flatten.length ∧
      ∃ k, (s.way d).storedData.map Packet.bytes = (s.link.frames d).drop k

/-- A connection comes up with nothing left over in the queues, and its reader is
    alone; less than `2 ^ 64` bytes are framed to it. -/
def LeavesNothing (s : Session) (e : Event) : Prop :=
  Vacant s e ∧ (∀ d, Realigned d s e) ∧ ∀ d, s.Short d

instance (s : Session) (e : Event) : Decidable (LeavesNothing s e) :=
  inferInstanceAs (Decidable (_ ∧ _ ∧ _))

/-- The invariants of a truthful run. -/
structure Counted (s : Session) : Prop where
  shape : Shape s
  one : OneReader s
  align : ∀ d, Align d s
  answers : Answers s

theorem Counted.init (c : Conf) : Counted (Session.init c) :=
  ⟨Shape.init c, OneReader.init c, fun d => Align.init d c, Answers.init c⟩

theorem Counted.step {s s' : Session} (h : Counted s) {e : Event} (hT : Truthful s e)
    (hL : LeavesNothing s e) (hr : Rule s e s') : Counted s' := by
  obtain ⟨hV, hR, hS⟩ := hL
  exact ⟨h.shape.step hr, h.one.step h.shape hV hr, fun d => (h.align d).step h.shape h.one (hR d)
    (h.answers.cutsBetween h.align h.shape h.one hS d hr) hr,
      h.answers.step h.align h.shape h.one hT hR hS hr⟩

/-- **Counters and queues are aligned.** -/
theorem Counted.countsFrames {s : Session} (h : Counted s) : s.CountsFrames := by
  intro hu hrel d
  have ha := (h.align d).idle hu (hrel d)
  refine ⟨Align.sum_of_aligned ha, ?_⟩
  obtain ⟨k, -, hfr, -⟩ := ha
  exact ⟨k, hfr.bytes⟩

end CppProxy
