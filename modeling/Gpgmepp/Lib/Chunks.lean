import Mathlib.Algebra.BigOperators.Group.List.Basic
import Mathlib.Algebra.GroupWithZero.Nat
import Mathlib.Tactic.Common

/-!
# Data taken in chunks

A list that is taken in chunks, each of at most a given size.  What was taken is a prefix that
depends on the sum of the sizes only, and if sizes that are not zero keep coming it becomes the
whole list.

## Main definitions

* `total` — the sum of the first sizes of a sequence.
* `take_add_of_take` — one more chunk.
* `exists_le_total` — sizes that are not zero add up to as much as one likes.
-/

namespace Chunks

variable {α : Type*}

/-- What the first `n` sizes add up to. -/
def total (sizes : ℕ → ℕ) (n : ℕ) : ℕ := ((List.range n).map sizes).sum

@[simp] theorem total_zero (sizes : ℕ → ℕ) : total sizes 0 = 0 := rfl

@[simp] theorem total_succ (sizes : ℕ → ℕ) (n : ℕ) :
    total sizes (n + 1) = total sizes n + sizes n := by
  simp [total, List.range_succ]

theorem total_mono (sizes : ℕ → ℕ) {m n : ℕ} (h : m ≤ n) : total sizes m ≤ total sizes n := by
  induction h with
  | refl => exact Nat.le_refl _
  | step _ ih =>
      rw [Nat.succ_eq_add_one, total_succ]
      omega

/-- One more chunk, taken where the ones before end. -/
theorem take_add_of_take (l : List α) (m n : ℕ) :
    l.take m ++ (l.drop (l.take m).length).take n = l.take (m + n) := by
  rcases Nat.le_total m l.length with h | h
  · rw [List.length_take_of_le h, List.take_add]
  · rw [List.take_of_length_le h, List.drop_length, List.take_nil, List.append_nil,
      List.take_of_length_le (by omega)]

/-- Sizes that are not zero, again and again, add up to any number. -/
theorem exists_le_total {sizes : ℕ → ℕ} (h : ∀ n, ∃ m ≥ n, sizes m ≠ 0) (k : ℕ) :
    ∃ n, k ≤ total sizes n := by
  induction k with
  | zero => exact ⟨0, Nat.zero_le _⟩
  | succ k ih =>
      obtain ⟨n, hn⟩ := ih
      obtain ⟨m, hm, hne⟩ := h n
      refine ⟨m + 1, ?_⟩
      have hmono := total_mono sizes hm
      rw [total_succ]
      omega

end Chunks
