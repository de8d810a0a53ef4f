/-
  Lists whose elements are related one by one.

  * `Forall₂.exists_left`, `Forall₂.exists_right`: the partner of an element;
  * `Forall₂.imp_mem`: the relation is weakened on the elements;
  * `Forall₂.eraseIdx`: a pair is taken out of both lists;
  * `Forall₂.set`: an element is replaced by one that has the same partner;
  * `forall₂_mapM`: the elements of a list and their values.
-/
import Mathlib.Data.List.Forall2

namespace List

variable {α β : Type*}

theorem Forall₂.exists_left {R : α → β → Prop} {as : List α} {bs : List β}
    (h : Forall₂ R as bs) {a : α} (ha : a ∈ as) : ∃ b ∈ bs, R a b := by
  induction h with
  | nil => exact absurd ha not_mem_nil
  | @cons a' b' as bs hR _ ih =>
    rcases mem_cons.1 ha with rfl | ha
    · exact ⟨b', mem_cons_self, hR⟩
    · obtain ⟨b, hb, hab⟩ := ih ha
      exact ⟨b, mem_cons_of_mem _ hb, hab⟩

theorem Forall₂.exists_right {R : α → β → Prop} {as : List α} {bs : List β}
    (h : Forall₂ R as bs) {b : β} (hb : b ∈ bs) : ∃ a ∈ as, R a b :=
  h.flip.exists_left hb

theorem Forall₂.imp_mem {R S : α → β → Prop} {as : List α} {bs : List β} (h : Forall₂ R as bs)
    (hRS : ∀ a ∈ as, ∀ b ∈ bs, R a b → S a b) : Forall₂ S as bs := by
  induction h with
  | nil => exact .nil
  | @cons a b as bs hR _ ih =>
    refine .cons (hRS a mem_cons_self b mem_cons_self hR) (ih fun a' ha b' hb => ?_)
    exact hRS a' (mem_cons_of_mem _ ha) b' (mem_cons_of_mem _ hb)

theorem Forall₂.eraseIdx {R : α → β → Prop} {as : List α} {bs : List β} (h : Forall₂ R as bs)
    (k : ℕ) : Forall₂ R (as.eraseIdx k) (bs.eraseIdx k) := by
  induction h generalizing k with
  | nil => exact .nil
  | cons hR h ih =>
    cases k with
    | zero => exact h
    | succ k => exact .cons hR (ih k)

theorem Forall₂.set {R : α → β → Prop} {as : List α} {bs : List β} (h : Forall₂ R as bs) {k : ℕ}
    {a : α} {b : β} (hb : bs[k]? = some b) (hR : R a b) : Forall₂ R (as.set k a) bs := by
  induction h generalizing k with
  | nil => exact .nil
  | cons hab h ih =>
    cases k with
    | zero =>
      cases hb
      exact .cons hR h
    | succ k => exact .cons hab (ih hb)

theorem forall₂_mapM {f : α → Option β} {l : List α} {bs : List β} (h : l.mapM f = some bs) :
    Forall₂ (fun a b => f a = some b) l bs := by
  induction l generalizing bs with
  | nil =>
    obtain rfl : [] = bs := by simpa using h
    exact .nil
  | cons a l ih =>
    simp only [mapM_cons, Option.bind_eq_bind, Option.pure_def, Option.bind_eq_some_iff,
      Option.some.injEq] at h
    obtain ⟨b, hb, bs', hbs, rfl⟩ := h
    exact .cons hb (ih hbs)

end List
