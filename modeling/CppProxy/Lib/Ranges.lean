/-
  Ranges of a memory.

  A memory gives each position an element.  `read` is what is in a range, and
  `write` puts a list at a position; a write leaves every range that is apart from
  it.
-/
import Mathlib.Data.List.Basic
import Mathlib.Data.List.Range

namespace Ranges

variable {α : Type*} {mem : ℕ → α}

/-- The `n` elements from `pos` on. -/
def read (mem : ℕ → α) (pos n : ℕ) : List α := (List.range' pos n).map mem

/-- `data` at `pos`. -/
def write (mem : ℕ → α) (pos : ℕ) (data : List α) : ℕ → α := fun i =>
  if pos ≤ i then (data[i - pos]?).getD (mem i) else mem i

/-- Two ranges have no position in common. -/
def Apart (pos n pos' n' : ℕ) : Prop := pos + n ≤ pos' ∨ pos' + n' ≤ pos

instance (pos n pos' n' : ℕ) : Decidable (Apart pos n pos' n') :=
  inferInstanceAs (Decidable (_ ∨ _))

@[simp] theorem length_read (mem : ℕ → α) (pos n : ℕ) : (read mem pos n).length = n := by
  simp [read]

theorem read_add (mem : ℕ → α) (pos n n' : ℕ) :
    read mem pos (n + n') = read mem pos n ++ read mem (pos + n) n' := by
  rw [read, ← List.range'_append_1, List.map_append]
  rfl

/-- A range inside a range. -/
theorem take_drop_read {pos n i k : ℕ} (h : i + k ≤ n) :
    ((read mem pos n).drop i).take k = read mem (pos + i) k := by
  obtain ⟨rest, rfl⟩ := Nat.exists_eq_add_of_le h
  rw [Nat.add_assoc, read_add, List.drop_left' (length_read _ _ _), read_add,
    List.take_left' (length_read _ _ _)]

theorem read_congr {mem' : ℕ → α} {pos n : ℕ} (h : ∀ i, pos ≤ i → i < pos + n → mem' i = mem i) :
    read mem' pos n = read mem pos n :=
  List.map_congr_left fun i hi => by
    rw [List.mem_range'_1] at hi
    exact h i hi.1 hi.2

/-- **A write leaves what is apart from it.** -/
theorem read_write_of_apart {pos n pos' : ℕ} {data : List α} (h : Apart pos n pos' data.length) :
    read (write mem pos' data) pos n = read mem pos n := by
  refine read_congr fun i h1 h2 => ?_
  unfold write
  split
  · rename_i hle
    rw [List.getElem?_eq_none]
    · rfl
    · rcases h with h | h <;> omega
  · rfl

/-- What is written is read. -/
theorem read_write (mem : ℕ → α) (pos : ℕ) (data : List α) :
    read (write mem pos data) pos data.length = data := by
  refine List.ext_getElem (length_read _ _ _) fun i _ h2 => ?_
  simp [read, write, h2]

end Ranges
