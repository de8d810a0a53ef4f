/-
  A stream relayed through a queue.

  Elements are read from a source and written to a sink, at once or after some
  time in a queue.  Several writers write to the sink; a writer has something
  left to write and, once that is written, makes a change to the queue.

  `Flow` says that the sink gets the stream of the source: at most one writer is
  at work, and what was received is what was accepted, what that writer has
  left, and what the queue holds once it has made its change.  The rules say
  when the moves of a relay keep it.
-/
import Mathlib.Data.List.Basic

namespace Relay

/-- What a writer has left to write, and what it makes of the queue then. -/
structure Writer (α β : Type*) where
  rest : List α
  clear : β → Option β

variable {α β ι : Type*}

/-- A writer that does nothing more. -/
def Writer.Idle (w : Writer α β) : Prop := w.rest = [] ∧ ∀ q, w.clear q = some q

/-- The sink gets the stream of the source; `holds q l` says that the queue `q`
    holds `l`. -/
structure Flow (holds : β → List α → Prop) (received accepted : List α) (stored : β)
    (writer : ι → Option (Writer α β)) : Prop where
  one : ∀ i j u v, writer i = some u → ¬ u.Idle → writer j = some v → ¬ v.Idle → i = j
  quiet : (∀ i u, writer i = some u → u.Idle) →
    ∃ l, holds stored l ∧ received = accepted ++ l
  busy : ∀ i u, writer i = some u → ¬ u.Idle →
    ∃ kept l, u.clear stored = some kept ∧ holds kept l ∧ received = accepted ++ (u.rest ++ l)

namespace Flow

variable {holds : β → List α → Prop} {received accepted : List α} {stored : β}
  {writer writer' : ι → Option (Writer α β)}

/-- **The sink has a prefix of the stream.** -/
theorem accepted_isPrefix (h : Flow holds received accepted stored writer) :
    accepted <+: received := by
  by_cases hq : ∀ i u, writer i = some u → u.Idle
  · obtain ⟨l, -, hl⟩ := h.quiet hq
    exact ⟨l, hl.symm⟩
  · simp only [not_forall] at hq
    obtain ⟨i, u, hu, hi⟩ := hq
    obtain ⟨kept, l, -, -, hl⟩ := h.busy i u hu hi
    exact ⟨_, hl.symm⟩

/-- Every writer can make its change. -/
theorem clearable (h : Flow holds received accepted stored writer) {i : ι} {u : Writer α β}
    (hi : writer i = some u) : ∃ kept, u.clear stored = some kept := by
  by_cases hid : u.Idle
  · exact ⟨stored, hid.2 stored⟩
  · obtain ⟨kept, -, hc, -⟩ := h.busy i u hi hid
    exact ⟨kept, hc⟩

/-- A writer has written everything and made its change: it stops, or turns into
    a writer that does nothing. -/
theorem finish (h : Flow holds received accepted stored writer) {i : ι} {kept : β}
    (hi : writer i = none ∧ kept = stored ∨
      ∃ u, writer i = some u ∧ u.rest = [] ∧ u.clear stored = some kept)
    (hne : ∀ j, j ≠ i → writer' j = writer j) (hnew : ∀ u, writer' i = some u → u.Idle) :
    Flow holds received accepted kept writer' := by
  have hother : ∀ j u, writer' j = some u → ¬ u.Idle → j ≠ i ∧ writer j = some u := by
    intro j u hu hn
    have hj : j ≠ i := by rintro rfl; exact hn (hnew u hu)
    exact ⟨hj, hne j hj ▸ hu⟩
  -- either the writer was at work, and no other is, or the queue stays as it is
  have hcase : (∃ u, writer i = some u ∧ ¬ u.Idle ∧ u.rest = [] ∧ u.clear stored = some kept) ∨
      kept = stored ∧ ∀ u, writer i = some u → u.Idle := by
    rcases hi with ⟨hn, rfl⟩ | ⟨u, hu, hr, hc⟩
    · exact .inr ⟨rfl, fun u hu => by rw [hn] at hu; cases hu⟩
    · by_cases hid : u.Idle
      · refine .inr ⟨?_, fun v hv => ?_⟩
        · have := hid.2 stored
          rw [hc] at this; exact Option.some_inj.1 this
        · rw [hu] at hv; cases hv; exact hid
      · exact .inl ⟨u, hu, hid, hr, hc⟩
  refine ⟨fun j k u v hu hnu hv hnv => ?_, fun hq => ?_, fun j u hu hn => ?_⟩
  · exact h.one j k u v (hother j u hu hnu).2 hnu (hother k v hv hnv).2 hnv
  · rcases hcase with ⟨u, hu, hn, hr, hc⟩ | ⟨rfl, hidle⟩
    · obtain ⟨kept', l, hc', hl, hrec⟩ := h.busy i u hu hn
      rw [hc] at hc'; cases hc'
      exact ⟨l, hl, by rw [hrec, hr, List.nil_append]⟩
    · refine h.quiet fun j u hu => ?_
      by_cases hj : j = i
      · subst hj; exact hidle u hu
      · exact hq j u (hne j hj ▸ hu)
  · obtain ⟨hj, hu'⟩ := hother j u hu hn
    rcases hcase with ⟨v, hv, hnv, -, -⟩ | ⟨rfl, -⟩
    · exact absurd (h.one j i u v hu' hn hv hnv) hj
    · exact h.busy j u hu' hn

/-- A writer has made its change, which it would not make again. -/
theorem cleared (h : Flow holds received accepted stored writer) {i : ι} {u : Writer α β}
    {kept : β} (hi : writer i = some u) (hc : u.clear stored = some kept)
    (hk : u.clear kept = some kept) : Flow holds received accepted kept writer := by
  by_cases hid : u.Idle
  · have := hid.2 stored
    rw [hc] at this; cases this
    exact h
  · refine ⟨h.one, fun hq => absurd (hq i u hi) hid, fun j v hv hn => ?_⟩
    obtain rfl := h.one j i v u hv hn hi hid
    rw [hi] at hv; cases hv
    obtain ⟨kept', l, hc', hl, hrec⟩ := h.busy j u hi hid
    rw [hc] at hc'; cases hc'
    exact ⟨kept, l, hk, hl, hrec⟩

/-- The sink accepts a part of a write. -/
theorem push (h : Flow holds received accepted stored writer) {i : ι} {u : Writer α β} {k : ℕ}
    (hi : writer i = some u) (h0 : 0 < k) (hk : k ≤ u.rest.length)
    (hne : ∀ j, j ≠ i → writer' j = writer j)
    (hnew : writer' i = some { u with rest := u.rest.drop k }) :
    Flow holds received (accepted ++ u.rest.take k) stored writer' := by
  have hn : ¬ u.Idle := by
    intro hid
    have := hid.1
    rw [this] at hk; simp at hk; omega
  obtain ⟨kept, l, hc, hl, hrec⟩ := h.busy i u hi hn
  have hrec' : received = accepted ++ u.rest.take k ++ (u.rest.drop k ++ l) := by
    rw [hrec, List.append_assoc, ← List.append_assoc (u.rest.take k), List.take_append_drop]
  have hother : ∀ j v, writer' j = some v → ¬ v.Idle → j = i := by
    intro j v hv hnv
    by_contra hj
    exact hj (h.one j i v u (hne j hj ▸ hv) hnv hi hn)
  refine ⟨fun j k u v hu hnu hv hnv => ?_, fun hq => ?_, fun j v hv hnv => ?_⟩
  · rw [hother j u hu hnu, hother k v hv hnv]
  · have hid := hq i _ hnew
    have hkept := hid.2 stored
    simp only [hc, Option.some.injEq] at hkept
    subst hkept
    exact ⟨l, hl, by rw [hrec', show u.rest.drop k = [] from hid.1, List.nil_append]⟩
  · obtain rfl := hother j v hv hnv
    rw [hnew] at hv; cases hv
    exact ⟨kept, l, hc, hl, hrec'⟩

/-- The source delivers `data`, which is stored. -/
theorem append (h : Flow holds received accepted stored writer) {m : List α} {b : β}
    (hs : ∀ l, holds stored l → holds b (l ++ m))
    (hc : ∀ i u kept, writer i = some u → ¬ u.Idle → u.clear stored = some kept →
      ∃ kept', u.clear b = some kept' ∧ ∀ l, holds kept l → holds kept' (l ++ m)) :
    Flow holds (received ++ m) accepted b writer := by
  refine ⟨h.one, fun hq => ?_, fun i u hu hn => ?_⟩
  · obtain ⟨l, hl, hrec⟩ := h.quiet hq
    exact ⟨l ++ m, hs l hl, by rw [hrec, List.append_assoc]⟩
  · obtain ⟨kept, l, hk, hl, hrec⟩ := h.busy i u hu hn
    obtain ⟨kept', hk', hl'⟩ := hc i u kept hu hn hk
    exact ⟨kept', l ++ m, hk', hl' l hl, by rw [hrec]; simp only [List.append_assoc]⟩

/-- With no writer at work, a writer starts on what the queue holds and on the
    `data` that the source has just delivered. -/
theorem start {x : ι → Option (Writer α β)} (h : Flow holds received accepted stored writer) {i : ι} {m : List α}
    (hidle : ∀ j u, writer j = some u → u.Idle) (hne : ∀ j, j ≠ i → x j = writer j)
    (hnew : ∀ l, holds stored l → ∃ u kept l', x i = some u ∧ u.clear stored = some kept ∧
      holds kept l' ∧ l ++ m = u.rest ++ l') :
    Flow holds (received ++ m) accepted stored x := by
  obtain ⟨l, hl, hrec⟩ := h.quiet hidle
  obtain ⟨u, kept, l', hu, hc, hl', hdata⟩ := hnew l hl
  have hother : ∀ j v, x j = some v → ¬ v.Idle → j = i := by
    intro j v hv hnv
    by_contra hj
    exact hnv (hidle j v (hne j hj ▸ hv))
  have hrec' : received ++ m = accepted ++ (u.rest ++ l') := by
    rw [hrec, List.append_assoc, hdata]
  refine ⟨fun j k u v hu hnu hv hnv => ?_, fun hq => ?_, fun j v hv hnv => ?_⟩
  · rw [hother j u hu hnu, hother k v hv hnv]
  · have hid := hq i u hu
    have hkept := hid.2 stored
    rw [hc] at hkept; cases hkept
    exact ⟨l', hl', by rw [hrec', hid.1, List.nil_append]⟩
  · obtain rfl := hother j v hv hnv
    rw [hu] at hv; cases hv
    exact ⟨kept, l', hc, hl', hrec'⟩

end Flow

end Relay
