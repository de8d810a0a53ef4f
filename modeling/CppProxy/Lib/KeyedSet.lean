/-
  Sets ordered by a key.

  A `std::set` whose comparison looks at one field holds one element for each
  value of that field, in its order.

  * `KeyedSet`: a list in strictly increasing order of the keys;
  * `emplace`: nothing is inserted when there is an element with the key;
  * `find`, `difference`: the lookup by key, and the merge of
    `std::set_difference`;
  * `mem_keys_emplace`, `find_isSome`, `mem_difference`: what they hold.
-/
import Mathlib.Data.List.Nodup
import Mathlib.Order.Lattice

/-- A set ordered by the key of its elements. -/
structure KeyedSet (α : Type*) {κ : Type*} [LinearOrder κ] (key : α → κ) where
  elems : List α
  sorted : elems.Pairwise fun a b => key a < key b

namespace KeyedSet

variable {α κ : Type*} [LinearOrder κ] {key : α → κ}

instance [DecidableEq α] : DecidableEq (KeyedSet α key) := fun s t =>
  decidable_of_iff (s.elems = t.elems) (by cases s; cases t; simp)

/-- The empty set. -/
def empty : KeyedSet α key := ⟨[], .nil⟩

/-- The keys of the elements, in their order. -/
def keys (s : KeyedSet α key) : List κ := s.elems.map key

/-- Insert before the first element with a larger key, unless the key is there. -/
def insertAt (key : α → κ) (a : α) : List α → List α
  | [] => [a]
  | b :: bs =>
    if key a < key b then a :: b :: bs
    else if key b < key a then b :: insertAt key a bs
    else b :: bs

theorem mem_insertAt {a b : α} {l : List α} (h : b ∈ insertAt key a l) : b = a ∨ b ∈ l := by
  induction l with
  | nil => exact .inl (List.mem_singleton.1 h)
  | cons c cs ih =>
    simp only [insertAt] at h
    split at h
    · exact List.mem_cons.1 h
    · split at h
      · rcases List.mem_cons.1 h with rfl | h
        · exact .inr (by simp)
        · exact (ih h).imp id fun h => by simp [h]
      · exact .inr h

theorem mem_keys_insertAt {a : α} {k : κ} {l : List α} :
    k ∈ (insertAt key a l).map key ↔ k = key a ∨ k ∈ l.map key := by
  induction l with
  | nil => simp [insertAt]
  | cons c cs ih =>
    simp only [insertAt]
    split
    · simp
    · rename_i h₁
      split
      · simp only [List.map_cons, List.mem_cons, ih]
        tauto
      · rename_i h₂
        -- the key is there already
        have hc : key a = key c := le_antisymm (not_lt.1 h₂) (not_lt.1 h₁)
        simp [hc]

theorem sorted_insertAt {a : α} {l : List α} (h : l.Pairwise fun a b => key a < key b) :
    (insertAt key a l).Pairwise fun a b => key a < key b := by
  induction l with
  | nil => exact List.pairwise_singleton _ _
  | cons c cs ih =>
    obtain ⟨hc, hcs⟩ := List.pairwise_cons.1 h
    simp only [insertAt]
    split
    · rename_i hlt
      refine List.pairwise_cons.2 ⟨fun b hb => ?_, h⟩
      rcases List.mem_cons.1 hb with rfl | hb
      · exact hlt
      · exact lt_trans hlt (hc b hb)
    · split
      · rename_i hlt
        refine List.pairwise_cons.2 ⟨fun b hb => ?_, ih hcs⟩
        rcases mem_insertAt hb with rfl | hb
        · exact hlt
        · exact hc b hb
      · exact h

/-- `emplace`. -/
def emplace (s : KeyedSet α key) (a : α) : KeyedSet α key :=
  ⟨insertAt key a s.elems, sorted_insertAt s.sorted⟩

theorem mem_keys_emplace {s : KeyedSet α key} {a : α} {k : κ} :
    k ∈ (s.emplace a).keys ↔ k = key a ∨ k ∈ s.keys := mem_keys_insertAt

theorem mem_emplace {s : KeyedSet α key} {a b : α} (h : b ∈ (s.emplace a).elems) :
    b = a ∨ b ∈ s.elems := mem_insertAt h

/-- Elements with one key are the same. -/
theorem eq_of_key {s : KeyedSet α key} {a b : α} (ha : a ∈ s.elems) (hb : b ∈ s.elems)
    (h : key a = key b) : a = b := by
  have hkeys : (s.elems.map key).Nodup := List.pairwise_map.2 (s.sorted.imp ne_of_lt)
  exact List.inj_on_of_nodup_map hkeys ha hb h

theorem mem_foldl_emplace {b : α} {l : List α} {s : KeyedSet α key}
    (h : b ∈ (l.foldl emplace s).elems) : b ∈ s.elems ∨ b ∈ l := by
  induction l generalizing s with
  | nil => exact .inl h
  | cons a l ih =>
    rcases ih h with h | h
    · rcases mem_emplace h with rfl | h
      · exact .inr (by simp)
      · exact .inl h
    · exact .inr (List.mem_cons_of_mem a h)

theorem mem_keys_foldl_emplace {k : κ} {l : List α} {s : KeyedSet α key} :
    k ∈ (l.foldl emplace s).keys ↔ k ∈ s.keys ∨ ∃ a ∈ l, key a = k := by
  induction l generalizing s with
  | nil => simp
  | cons a l ih =>
    rw [List.foldl_cons, ih, mem_keys_emplace]
    simp only [List.mem_cons, exists_eq_or_imp, eq_comm (a := k)]
    tauto

/-- `find`, with any element that has the key. -/
def find (s : KeyedSet α key) (k : κ) : Option α := s.elems.find? fun a => key a = k

theorem find_isSome {s : KeyedSet α key} {k : κ} : (s.find k).isSome ↔ k ∈ s.keys := by
  simp [find, keys]

theorem mem_of_find {s : KeyedSet α key} {k : κ} {a : α} (h : s.find k = some a) :
    a ∈ s.elems ∧ key a = k := by
  refine ⟨List.mem_of_find?_eq_some h, ?_⟩
  have := List.find?_some h
  simpa using this

theorem find_of_mem {s : KeyedSet α key} {a : α} (h : a ∈ s.elems) : s.find (key a) = some a := by
  obtain ⟨b, hb⟩ := Option.isSome_iff_exists.1 (find_isSome.2 (List.mem_map_of_mem (f := key) h))
  obtain ⟨hmem, hkey⟩ := mem_of_find hb
  rw [hb, eq_of_key hmem h hkey]

/-- One step of the merge of `std::set_difference` at the element `a`; `rest`
    goes on behind `a`. -/
def differenceAt (key : α → κ) (a : α) (as : List α) (rest : List α → List α) :
    List α → List α
  | [] => a :: as
  | b :: bs =>
    if key a < key b then a :: rest (b :: bs)
    else if key b < key a then differenceAt key a as rest bs
    else rest bs

/-- `std::set_difference`. -/
def differenceList (key : α → κ) : List α → List α → List α
  | [], _ => []
  | a :: as, bs => differenceAt key a as (differenceList key as) bs

/-- Without a smaller key than `a`, the keys behind `a` do not hold it either. -/
theorem filter_of_lt {as bs : List α} {b : α} (h : ∀ a ∈ as, key b < key a) :
    as.filter (fun a => key a ∉ (b :: bs).map key) =
      as.filter fun a => key a ∉ bs.map key := by
  refine List.filter_congr fun a ha => ?_
  have hne : key a ≠ key b := ne_of_gt (h a ha)
  simp [hne]

theorem differenceList_eq {as bs : List α} (ha : as.Pairwise fun a b => key a < key b)
    (hb : bs.Pairwise fun a b => key a < key b) :
    differenceList key as bs = as.filter fun a => key a ∉ bs.map key := by
  induction as generalizing bs with
  | nil => rfl
  | cons a as ihas =>
    obtain ⟨haa, has⟩ := List.pairwise_cons.1 ha
    induction bs with
    | nil => simp [differenceList, differenceAt]
    | cons b bs ih =>
      obtain ⟨hbb, hbs⟩ := List.pairwise_cons.1 hb
      simp only [differenceList, differenceAt]
      split
      · rename_i hlt
        rw [ihas has hb, List.filter_cons_of_pos]
        have hnot : ∀ b' ∈ bs, ¬ key b' = key a := fun b' hb' =>
          ne_of_gt (lt_trans hlt (hbb b' hb'))
        simpa [ne_of_lt hlt] using hnot
      · rename_i hle
        split
        · rename_i hlt
          have hih := ih hbs
          simp only [differenceList] at hih
          rw [hih, filter_of_lt fun a' ha' => ?_]
          rcases List.mem_cons.1 ha' with rfl | ha'
          · exact hlt
          · exact lt_trans hlt (haa a' ha')
        · rename_i hge
          have heq : key a = key b := le_antisymm (not_lt.1 hge) (not_lt.1 hle)
          rw [ihas has hbs, List.filter_cons_of_neg (by simp [heq]),
            filter_of_lt fun a' ha' => heq ▸ haa a' ha']

/-- The elements whose key is not in the other set. -/
def difference (s t : KeyedSet α key) : KeyedSet α key where
  elems := differenceList key s.elems t.elems
  sorted := by
    rw [differenceList_eq s.sorted t.sorted]
    exact s.sorted.filter _

/-- **The difference by key.** -/
theorem mem_difference {s t : KeyedSet α key} {a : α} :
    a ∈ (s.difference t).elems ↔ a ∈ s.elems ∧ key a ∉ t.keys := by
  simp only [difference, differenceList_eq s.sorted t.sorted, List.mem_filter, keys]
  simp

theorem mem_keys_difference {s t : KeyedSet α key} {k : κ} :
    k ∈ (s.difference t).keys ↔ k ∈ s.keys ∧ k ∉ t.keys := by
  simp only [keys, List.mem_map, mem_difference]
  constructor
  · rintro ⟨a, ⟨ha, hk⟩, rfl⟩
    exact ⟨⟨a, ha, rfl⟩, by simpa [keys] using hk⟩
  · rintro ⟨⟨a, ha, rfl⟩, hk⟩
    exact ⟨a, ⟨ha, by simpa [keys] using hk⟩, rfl⟩

end KeyedSet
