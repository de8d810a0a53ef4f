/-
  Properties of recorded traces.

  A trace is the list of what happened, the latest last.  `Before P` says that
  `P` holds of every entry and the entries before it, `After Q` that `Q` holds
  of every entry and the one that follows it, if any.  Both are extended by the
  entries that a step records.
-/
import Mathlib.Data.List.Basic

namespace Traces

variable {α : Type*}

/-- Every entry meets `P` with the entries before it. -/
def Before (P : List α → α → Prop) (trace : List α) : Prop :=
  ∀ pre a post, trace = pre ++ a :: post → P pre a

/-- Every entry meets `Q` with the entry after it. -/
def After (Q : α → Option α → Prop) (trace : List α) : Prop :=
  ∀ pre a post, trace = pre ++ a :: post → Q a post.head?

variable {P P' : List α → α → Prop} {Q : α → Option α → Prop} {trace acts : List α} {b : α}

/-- The places in a trace are its first one and those behind it. -/
theorem forall_split_cons {R : List α → α → List α → Prop} :
    (∀ pre a post, b :: trace = pre ++ a :: post → R pre a post) ↔
      R [] b trace ∧ ∀ pre a post, trace = pre ++ a :: post → R (b :: pre) a post := by
  constructor
  · intro h
    exact ⟨h [] b trace rfl, fun pre a post heq => h (b :: pre) a post (by rw [heq]; rfl)⟩
  · rintro ⟨hb, h⟩ pre a post heq
    cases pre with
    | nil =>
      cases heq
      exact hb
    | cons c pre =>
      rw [List.cons_append, List.cons.injEq] at heq
      obtain ⟨rfl, heq⟩ := heq
      exact h pre a post heq

@[simp] theorem before_nil : Before P [] := fun pre a post h => by simp at h

@[simp] theorem before_cons :
    Before P (b :: trace) ↔ P [] b ∧ Before (fun pre a => P (b :: pre) a) trace :=
  forall_split_cons

@[simp] theorem after_nil : After Q [] := fun pre a post h => by simp at h

@[simp] theorem after_cons : After Q (b :: trace) ↔ Q b trace.head? ∧ After Q trace :=
  forall_split_cons

/-- What is recorded next meets `P` with all that was recorded before. -/
theorem Before.append (h : Before P trace) (ha : Before (fun pre a => P (trace ++ pre) a) acts) :
    Before P (trace ++ acts) := by
  intro pre a post heq
  rcases List.append_eq_append_iff.1 heq with ⟨l, rfl, hl⟩ | ⟨l, hl, hacts⟩
  · exact ha l a post hl
  · cases l with
    | nil =>
      rw [List.append_nil] at hl
      rw [List.nil_append] at hacts
      subst hl
      simpa using ha [] a post hacts.symm
    | cons b l =>
      rw [List.cons_append, List.cons.injEq] at hacts
      obtain ⟨rfl, -⟩ := hacts
      exact h pre a l hl

theorem Before.imp (h : Before P trace) (hP : ∀ pre a, P pre a → P' pre a) : Before P' trace :=
  fun pre a post heq => hP pre a (h pre a post heq)

/-- Entries that meet `P` whatever came before. -/
theorem before_of_forall (h : ∀ a ∈ trace, ∀ pre, P pre a) : Before P trace :=
  fun pre a post heq => h a (by rw [heq]; simp) pre

/-- An entry that meets `Q` as the last one meets it whatever follows. -/
theorem After.append (hQ : ∀ a, Q a none → ∀ b, Q a (some b)) (h : After Q trace)
    (ha : After Q acts) : After Q (trace ++ acts) := by
  intro pre a post heq
  rcases List.append_eq_append_iff.1 heq with ⟨l, rfl, hl⟩ | ⟨l, hl, hacts⟩
  · exact ha l a post hl
  · cases l with
    | nil => exact ha [] a post hacts.symm
    | cons b l =>
      rw [List.cons_append, List.cons.injEq] at hacts
      obtain ⟨rfl, rfl⟩ := hacts
      have := h pre a l hl
      cases l with
      | nil =>
        cases acts with
        | nil => exact this
        | cons b acts => exact hQ a this b
      | cons b l => exact this

/-- Entries that meet `Q` whatever follows. -/
theorem after_of_forall (h : ∀ a ∈ trace, ∀ next, Q a next) : After Q trace :=
  fun pre a post heq => h a (by rw [heq]; simp) _

end Traces
