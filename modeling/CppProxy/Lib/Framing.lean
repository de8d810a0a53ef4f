/-
  Frames on one stream.

  Several writers send frames over one stream, each in parts of any size.  A
  frame is begun when its first part is sent, and a writer is part-way while some
  of its frame is sent and some is not.  If a part is sent only while no other
  writer is part-way, the stream is always the frames in the order they were
  begun, up to a part of the last one.

  * `PrefixFree.isPrefix`: frames that tell where they end are cut off a stream in
    one way;
  * `Framed`: the stream is whole frames and a part of one more;
  * `Midway`: the last frame has `rest` to go;
  * `Clean`: no writer is part-way and the stream is whole frames, or the part-way
    writer is at the last one.
-/
import Mathlib.Data.List.Basic

namespace Framing

variable {α T : Type*} {ok : List α → Prop}

/-- No frame is the start of another one. -/
def PrefixFree (ok : List α → Prop) : Prop :=
  ∀ f g, ok f → ok g → f <+: g → f = g

/-- **A stream is cut into frames in one way**: frames that make up the start of a
    stream are its first frames. -/
theorem PrefixFree.isPrefix (h : PrefixFree ok) (hne : ∀ f, ok f → f ≠ []) :
    ∀ {fs gs : List (List α)}, (∀ f ∈ fs, ok f) → (∀ g ∈ gs, ok g) →
      fs.flatten <+: gs.flatten → fs <+: gs
  | [], _, _, _, _ => List.nil_prefix
  | f :: fs, [], hf, _, hp => by
    have hnil := List.prefix_nil.1 hp
    exact absurd (List.append_eq_nil_iff.1 hnil).1 (hne f (hf f (by simp)))
  | f :: fs, g :: gs, hf, hg, hp => by
    rw [List.flatten_cons, List.flatten_cons] at hp
    have hfg : f = g := by
      have hfp : f <+: g ++ gs.flatten := (List.prefix_append _ _).trans hp
      rcases List.prefix_or_prefix_of_prefix hfp (List.prefix_append g gs.flatten) with h' | h'
      · exact h f g (hf f (by simp)) (hg g (by simp)) h'
      · exact (h g f (hg g (by simp)) (hf f (by simp)) h').symm
    subst hfg
    rw [List.prefix_append_right_inj] at hp
    rw [List.prefix_cons_inj]
    exact h.isPrefix hne (fun f' hf' => hf f' (by simp [hf'])) (fun g' hg' => hg g' (by simp [hg'])) hp

/-- The stream is the frames that were begun, up to a part of the last. -/
inductive Framed (ok : List α → Prop) : List (List α) → List α → Prop
  | nil : Framed ok [] []
  | last {whole : List (List α)} {f part : List α} :
    (∀ g ∈ whole, ok g) → ok f → part <+: f → Framed ok (whole ++ [f]) (whole.flatten ++ part)

/-- The stream never leaves the frames that were begun. -/
theorem Framed.within {begun : List (List α)} {sent : List α} (h : Framed ok begun sent) :
    sent <+: begun.flatten := by
  cases h with
  | nil => exact List.nil_prefix
  | @last whole f part _ _ hp => simpa using hp

theorem Framed.frames_ok {begun : List (List α)} {sent : List α} (h : Framed ok begun sent) :
    ∀ f ∈ begun, ok f := by
  cases h with
  | nil => exact fun _ hf => by cases hf
  | @last whole f part hw hf _ =>
    intro g hg
    rcases List.mem_append.1 hg with hg | hg
    · exact hw g hg
    · rw [List.mem_singleton.1 hg]; exact hf

/-- Every frame that was begun is one, and together they are the stream. -/
def Whole (ok : List α → Prop) (begun : List (List α)) (sent : List α) : Prop :=
  (∀ f ∈ begun, ok f) ∧ sent = begun.flatten

/-- The last frame that was begun is `frame`, with `rest` to go. -/
def Midway (ok : List α → Prop) (begun : List (List α)) (sent frame rest : List α) : Prop :=
  ∃ whole, begun = whole ++ [frame] ∧ (∀ f ∈ whole, ok f) ∧ ok frame ∧
    sent ++ rest = begun.flatten

theorem whole_nil : Whole ok [] ([] : List α) := ⟨by simp, rfl⟩

/-- A frame is begun after whole frames. -/
theorem Whole.begin {begun : List (List α)} {sent frame : List α} (h : Whole ok begun sent)
    (hf : ok frame) : Midway ok (begun ++ [frame]) sent frame frame :=
  ⟨begun, rfl, h.1, hf, by simp [h.2]⟩

namespace Midway

variable {begun : List (List α)} {sent frame rest : List α}

/-- A part of the rest is sent. -/
theorem send (h : Midway ok begun sent frame rest) (k : ℕ) :
    Midway ok begun (sent ++ rest.take k) frame (rest.drop k) := by
  obtain ⟨whole, hb, hok, hf, heq⟩ := h
  exact ⟨whole, hb, hok, hf, by rw [List.append_assoc, List.take_append_drop, heq]⟩

/-- The last part is sent. -/
theorem whole (h : Midway ok begun sent frame []) : Whole ok begun sent := by
  obtain ⟨whole, rfl, hok, hf, heq⟩ := h
  refine ⟨fun g hg => ?_, by rwa [List.append_nil] at heq⟩
  rcases List.mem_append.1 hg with hg | hg
  · exact hok g hg
  · rw [List.mem_singleton.1 hg]; exact hf

/-- The last frame that was begun is one. -/
theorem frame_eq {frame' rest' : List α} (h : Midway ok begun sent frame rest)
    (h' : Midway ok begun sent frame' rest') : frame = frame' := by
  obtain ⟨whole, hb, -⟩ := h
  obtain ⟨whole', hb', -⟩ := h'
  have hlast := congrArg List.getLast? (hb.symm.trans hb')
  simpa using hlast

theorem framed (h : Midway ok begun sent frame rest) (hr : rest <:+ frame) :
    Framed ok begun sent := by
  obtain ⟨whole, rfl, hok, hf, heq⟩ := h
  obtain ⟨part, hpart⟩ := hr
  have hsent : sent = whole.flatten ++ part := by
    refine List.append_cancel_right (?_ : sent ++ rest = whole.flatten ++ part ++ rest)
    rw [heq, List.append_assoc, hpart]
    simp
  rw [hsent]
  exact .last hok hf ⟨rest, hpart⟩

end Midway

/-- A writer of `frame` that has `rest` to send is part-way. -/
def PartWay (frame rest : List α) : Prop := rest ≠ [] ∧ rest ≠ frame

instance [DecidableEq α] (frame rest : List α) : Decidable (PartWay frame rest) :=
  inferInstanceAs (Decidable (_ ∧ _))

/-- The part-way writer is at the last frame; without one the stream is whole
    frames. -/
structure Clean (ok : List α → Prop) (writers : T → Option (List α × List α))
    (begun : List (List α)) (sent : List α) : Prop where
  partWay : ∀ t frame rest, writers t = some (frame, rest) → PartWay frame rest →
    Midway ok begun sent frame rest
  whole : (∀ t frame rest, writers t = some (frame, rest) → ¬ PartWay frame rest) →
    Whole ok begun sent

variable {writers writers' : T → Option (List α × List α)} {begun : List (List α)} {sent : List α}

/-- Nothing is sent yet. -/
theorem clean_nil (h : ∀ t frame rest, writers t = some (frame, rest) → ¬ PartWay frame rest) :
    Clean ok writers [] [] :=
  ⟨fun t frame rest hw hp => absurd hp (h t frame rest hw), fun _ => whole_nil⟩

/-- Writers come and go, but none that is part-way. -/
theorem Clean.congr (h : Clean ok writers begun sent) (hw : ∀ t frame rest, PartWay frame rest →
    (writers' t = some (frame, rest) ↔ writers t = some (frame, rest))) :
    Clean ok writers' begun sent :=
  ⟨fun t frame rest ht hp => h.partWay t frame rest ((hw t frame rest hp).1 ht) hp,
    fun hn => h.whole fun t frame rest ht hp => hn t frame rest ((hw t frame rest hp).2 ht) hp⟩

/-- **A part is sent while no other writer is part-way**: the stream stays framed. -/
theorem Clean.send {v : T → Option (List α × List α)} [DecidableEq α] (h : Clean ok writers begun sent) {t : T}
    {f rest : List α} {k : ℕ} (ht : writers t = some (f, rest)) (hf : ok f)
    (h0 : 0 < k) (hk : k ≤ rest.length) (hl : rest <:+ f)
    (hother : ∀ t' ≠ t, ∀ frame' rest', writers t' = some (frame', rest') → ¬ PartWay frame' rest')
    (ht' : v t = some (f, rest.drop k)) (hw : ∀ t' ≠ t, v t' = writers t') :
    Clean ok v (begun ++ if rest = f then [f] else []) (sent ++ rest.take k) ∧
      Framed ok (begun ++ if rest = f then [f] else []) (sent ++ rest.take k) := by
  have hrest : rest ≠ [] := by
    rintro rfl
    rw [List.length_nil] at hk; omega
  have hmid : Midway ok (begun ++ if rest = f then [f] else []) sent f rest := by
    by_cases hp : PartWay f rest
    · rw [if_neg hp.2, List.append_nil]
      exact h.partWay t f rest ht hp
    · -- the f is begun, and every other writer is at an end of its own
      have heq : rest = f := by
        by_contra hne
        exact hp ⟨hrest, hne⟩
      rw [if_pos heq, heq]
      refine Whole.begin (h.whole fun t' frame' rest' hw' => ?_) hf
      by_cases htt : t' = t
      · subst htt
        rw [ht] at hw'; cases hw'
        exact hp
      · exact hother t' htt frame' rest' hw'
  have hsend := hmid.send k
  refine ⟨⟨fun t' frame' rest' hw' hp => ?_, fun hn => ?_⟩,
    hsend.framed ((List.drop_suffix k rest).trans hl)⟩
  · by_cases htt : t' = t
    · subst htt
      rw [ht'] at hw'; cases hw'
      exact hsend
    · rw [hw t' htt] at hw'
      exact absurd hp (hother t' htt frame' rest' hw')
  · have hend : rest.drop k = [] := by
      by_contra hne
      refine hn t f (rest.drop k) ht' ⟨hne, fun heq => ?_⟩
      have hd := congrArg List.length heq
      have hle := hl.length_le
      rw [List.length_drop] at hd
      omega
    rw [hend] at hsend
    exact hsend.whole

end Framing
