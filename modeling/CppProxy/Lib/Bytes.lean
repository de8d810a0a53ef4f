/-
  Bytes and fixed-width little-endian numbers.

  `le w n` are the `w` low bytes of `n`, least significant first, and `ofLe`
  reads them back; `ofLe_le` is the round trip.
-/
import Mathlib.Algebra.Group.Nat.Even
import Mathlib.Data.List.Basic

/-- A byte of a stream. -/
abbrev Byte := UInt8

namespace Bytes

/-- The `w` low bytes of `n`, least significant first. -/
def le : ℕ → ℕ → List Byte
  | 0, _ => []
  | w + 1, n => UInt8.ofNat n :: le w (n / 256)

/-- The number with the given little-endian bytes. -/
def ofLe : List Byte → ℕ
  | [] => 0
  | b :: bs => b.toNat + 256 * ofLe bs

@[simp] theorem length_le (w n : ℕ) : (le w n).length = w := by
  induction w generalizing n with
  | zero => rfl
  | succ w ih => simp [le, ih]

theorem ofLe_le {w n : ℕ} (h : n < 256 ^ w) : ofLe (le w n) = n := by
  induction w generalizing n with
  | zero =>
    have : n = 0 := by simpa using h
    simp [le, ofLe, this]
  | succ w ih =>
    have hd : n / 256 < 256 ^ w := by
      rw [Nat.div_lt_iff_lt_mul (by decide)]; rwa [pow_succ] at h
    simp only [le, ofLe, ih hd, UInt8.toNat_ofNat']
    omega

end Bytes
