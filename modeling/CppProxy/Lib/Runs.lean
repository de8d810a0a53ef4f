/-
  Runs of a partial step function.

  A system is a function `step : σ → ε → Option σ`: event `e` can happen in
  state `s` when `step s e` is `some`.  `Reach step C s₀` are the states
  reached from `s₀` by steps that all meet the guard `C`; `run` replays a list
  of events, and `reach_run` turns a replay into a run.  `Reach.simulate` follows
  the runs of one system in another.  `Path.work_le` bounds the
  steps of its own that a system takes, and `Settles` says that it then has met its
  goal.
-/
import Mathlib.Algebra.Ring.Nat
import Mathlib.Logic.Basic

namespace Runs

variable {σ ε : Type*}

/-- The states reached from `s₀` by steps that all meet `C`. -/
inductive Reach (step : σ → ε → Option σ) (C : σ → ε → Prop) (s₀ : σ) : σ → Prop
  | refl : Reach step C s₀ s₀
  | tail {s s' : σ} {e : ε} :
    Reach step C s₀ s → C s e → step s e = some s' → Reach step C s₀ s'

/-- Replay a list of events. -/
def run (step : σ → ε → Option σ) (s : σ) : List ε → Option σ
  | [] => some s
  | e :: es => (step s e).bind fun s' => run step s' es

variable {step : σ → ε → Option σ} {C : σ → ε → Prop} {s₀ s : σ}

/-- What holds at the start and is kept by every step that meets the guard
    holds of every state of every run. -/
theorem Reach.inv {I : σ → Prop} (h : Reach step C s₀ s) (h₀ : I s₀)
    (hstep : ∀ s e s', I s → C s e → step s e = some s' → I s') : I s := by
  induction h with
  | refl => exact h₀
  | tail _ hC hs ih => exact hstep _ _ _ ih hC hs

theorem Reach.trans {s' : σ} (h : Reach step C s₀ s) (h' : Reach step C s s') :
    Reach step C s₀ s' := by
  induction h' with
  | refl => exact h
  | tail _ hc hs ih => exact ih.tail hc hs

theorem Reach.head {s₁ : σ} {e : ε} (hC : C s₀ e) (hs : step s₀ e = some s₁)
    (h : Reach step C s₁ s) : Reach step C s₀ s :=
  (Reach.tail .refl hC hs).trans h

/-- **Forward simulation.**  Where every step of one system is matched by steps of
    another, a run of the one is matched by a run of the other. -/
theorem Reach.simulate {τ δ : Type*} {step' : τ → δ → Option τ} {D : τ → δ → Prop} {t₀ : τ}
    {R : σ → τ → Prop} (h : Reach step C s₀ s) (h₀ : R s₀ t₀)
    (hstep : ∀ s t e s', Reach step C s₀ s → Reach step' D t₀ t → R s t → C s e →
      step s e = some s' → ∃ t', Reach step' D t t' ∧ R s' t') :
    ∃ t, Reach step' D t₀ t ∧ R s t := by
  induction h with
  | refl => exact ⟨t₀, .refl, h₀⟩
  | tail hr hC hs ih =>
    obtain ⟨t, ht, hR⟩ := ih
    obtain ⟨t', ht', hR'⟩ := hstep _ _ _ _ hr ht hR hC hs
    exact ⟨t', ht.trans ht', hR'⟩

/-- A replay whose events meet the guard in every state is a run. -/
theorem reach_run {es : List ε} (hC : ∀ e ∈ es, ∀ s, C s e) (h : run step s₀ es = some s) :
    Reach step C s₀ s := by
  induction es generalizing s₀ with
  | nil =>
    cases h
    exact .refl
  | cons e es ih =>
    simp only [run, Option.bind_eq_some_iff] at h
    obtain ⟨s₁, h₁, h⟩ := h
    exact .head (hC e (by simp) s₀) h₁ (ih (fun e' he' => hC e' (by simp [he'])) h)

/-- A replay that ends in a state with `p`: such a state is reached. -/
theorem exists_run (step : σ → ε → Option σ) (C : σ → ε → Prop) (s₀ : σ) (es : List ε)
    (p : σ → Bool) (hC : ∀ e ∈ es, ∀ s, C s e) (h : (run step s₀ es).any p = true) :
    ∃ s, Reach step C s₀ s ∧ p s = true := by
  obtain ⟨s, hs, hp⟩ := (Option.any_eq_true p _).1 h
  exact ⟨s, reach_run hC hs, hp⟩

/-- Replay a list of events, checking the guard before each. -/
def runIf (step : σ → ε → Option σ) (C : σ → ε → Prop) [∀ s e, Decidable (C s e)] (s : σ) :
    List ε → Option σ
  | [] => some s
  | e :: es => if C s e then (step s e).bind fun s' => runIf step C s' es else none

theorem reach_runIf [∀ s e, Decidable (C s e)] {es : List ε} (h : runIf step C s₀ es = some s) :
    Reach step C s₀ s := by
  induction es generalizing s₀ with
  | nil =>
    cases h
    exact .refl
  | cons e es ih =>
    simp only [runIf] at h
    split at h
    · rename_i hC
      obtain ⟨s₁, h₁, h⟩ := Option.bind_eq_some_iff.1 h
      exact .head hC h₁ (ih h)
    · cases h

theorem exists_runIf (step : σ → ε → Option σ) (C : σ → ε → Prop)
    [∀ s e, Decidable (C s e)] (s₀ : σ) (es : List ε) (p : σ → Bool)
    (h : (runIf step C s₀ es).any p = true) : ∃ s, Reach step C s₀ s ∧ p s = true := by
  obtain ⟨s, hs, hp⟩ := (Option.any_eq_true p _).1 h
  exact ⟨s, reach_runIf hs, hp⟩

/-! ## Runs that come to a goal -/

/-- The states reached from `s₀` by steps that all meet `C`, with their events. -/
inductive Path (step : σ → ε → Option σ) (C : σ → ε → Prop) (s₀ : σ) : List ε → σ → Prop
  | nil : Path step C s₀ [] s₀
  | snoc {es : List ε} {s s' : σ} {e : ε} :
    Path step C s₀ es s → C s e → step s e = some s' → Path step C s₀ (es ++ [e]) s'

theorem Path.head {es : List ε} {s₁ : σ} {e : ε} (hC : C s₀ e) (hs : step s₀ e = some s₁)
    (h : Path step C s₁ es s) : Path step C s₀ (e :: es) s := by
  induction h with
  | nil =>
    show Path step C s₀ ([] ++ [e]) _
    exact .snoc .nil hC hs
  | snoc _ hC' hs' ih => exact .snoc ih hC' hs'

/-- A replay with checks is a path of its events. -/
theorem path_runIf [∀ s e, Decidable (C s e)] {es : List ε} (h : runIf step C s₀ es = some s) :
    Path step C s₀ es s := by
  induction es generalizing s₀ with
  | nil =>
    cases h
    exact .nil
  | cons e es ih =>
    simp only [runIf] at h
    split at h
    · rename_i hC
      obtain ⟨s₁, h₁, h⟩ := Option.bind_eq_some_iff.1 h
      exact .head hC h₁ (ih h)
    · cases h

/-- **Work is paid for.**  A step that leads to a state with `P` comes from one, raises
    the rank by its cost at most, and as one of the system's own lowers it by one more:
    then the own steps of a path are at most the rank at its start and the costs. -/
theorem Path.work_le {own : ε → Prop} [DecidablePred own] {I P : σ → Prop} (rank : σ → ℕ)
    (cost : ε → ℕ) {es : List ε} (hp : Path step C s₀ es s) (h : I s₀)
    (hstep : ∀ s e s', I s → C s e → step s e = some s' → I s' ∧
      (P s' → P s ∧ rank s' + (if own e then 1 else 0) ≤ rank s + cost e)) :
    I s ∧ (P s → rank s + es.countP (fun e => decide (own e)) ≤ rank s₀ + (es.map cost).sum) := by
  induction hp with
  | nil => exact ⟨h, fun _ => Nat.le_refl _⟩
  | snoc _ hC hs ih =>
    obtain ⟨hI, hle⟩ := hstep _ _ _ ih.1 hC hs
    refine ⟨hI, fun hP => ?_⟩
    obtain ⟨hP, hle⟩ := hle hP
    have := ih.2 hP
    simp only [List.countP_append, List.countP_singleton, decide_eq_true_eq, List.map_append,
      List.map_cons, List.map_nil, List.sum_append, List.sum_cons, List.sum_nil]
    omega

/-- However the system goes on from `s`, it takes only so many steps of its own, and
    while the goal is not met it can take one. -/
structure Settles (step : σ → ε → Option σ) (C : σ → ε → Prop) (own : ε → Prop)
    [DecidablePred own] (goal : σ → Prop) (s : σ) : Prop where
  bounded : ∃ n, ∀ es s', Path step C s es s' → es.countP (fun e => decide (own e)) ≤ n
  goesOn : ∀ s', Reach step C s s' → goal s' ∨ ∃ e s'', own e ∧ C s' e ∧ step s' e = some s''

/-- A rank that every step of its own lowers, and that no step raises, settles the
    system. -/
theorem settles_of_rank {own : ε → Prop} [DecidablePred own] {goal I : σ → Prop} (rank : σ → ℕ)
    (h : I s) (hstep : ∀ s e s', I s → C s e → step s e = some s' →
      I s' ∧ rank s' + (if own e then 1 else 0) ≤ rank s)
    (hgo : ∀ s, I s → goal s ∨ ∃ e s', own e ∧ C s e ∧ step s e = some s') :
    Settles step C own goal s where
  bounded := by
    have hrun : ∀ es s', Path step C s es s' →
        I s' ∧ rank s' + es.countP (fun e => decide (own e)) ≤ rank s := by
      intro es s' hp
      induction hp with
      | nil => exact ⟨h, Nat.le_refl _⟩
      | snoc _ hC hs ih =>
        obtain ⟨hI, hle⟩ := hstep _ _ _ ih.1 hC hs
        refine ⟨hI, ?_⟩
        simp only [List.countP_append, List.countP_singleton, decide_eq_true_eq]
        have := ih.2
        omega
    exact ⟨rank s, fun es s' hp => Nat.le_trans (Nat.le_add_left _ _) (hrun es s' hp).2⟩
  goesOn s' hr := hgo s' (hr.inv h fun s e s' hI hC hs => (hstep s e s' hI hC hs).1)

end Runs
