import Mathlib.Data.List.Basic
import Mathlib.Data.UInt
import Mathlib.Tactic.Common

/-!
# Loops with a counter of 32 bits

The loop `for (unsigned int i = 0 ; i < size ; ++i)` that appends something to a vector for
each `i`.  The counter wraps around, so the loop comes to an end only if `size` fits in 32
bits.

## Main definitions

* `collect` — the loop, for a number of rounds.
* `Collects`, `collects_iff` — what the vector is when the loop is done.
* `forall₂_map_range` — its elements, one by one.
-/

namespace Collect

variable {α : Type*} {size : ℕ} {f : UInt32 → α}

/-- The loop from `i` on, if it is done after fewer rounds than `fuel`. -/
def collect (size : ℕ) (f : UInt32 → α) : (fuel : ℕ) → UInt32 → List α → Option (List α)
  | 0, _, _ => none
  | fuel + 1, i, result =>
      if i.toNat < size then collect size f fuel (i + 1) (result ++ [f i]) else some result

/-- The loop is done with the vector `l`. -/
def Collects (size : ℕ) (f : UInt32 → α) (l : List α) : Prop :=
  ∃ fuel, collect size f fuel 0 [] = some l

/-- The counter is never large enough. -/
theorem collect_eq_none (h : 2 ^ 32 ≤ size) (fuel : ℕ) :
    ∀ (i : UInt32) (result : List α), collect size f fuel i result = none := by
  induction fuel with
  | zero => intro i result; rfl
  | succ fuel ih =>
      intro i result
      have hi : i.toNat < size := lt_of_lt_of_le i.toNat_lt h
      rw [collect, if_pos hi]
      exact ih _ _

/-- The loop from `i` on, with `n` rounds to go. -/
theorem collect_eq (h : size < 2 ^ 32) (fuel : ℕ) :
    ∀ (n i : ℕ) (result : List α), i + n = size →
      collect size f fuel (UInt32.ofNat i) result =
        if n < fuel then some (result ++ (List.range' i n).map fun j => f (UInt32.ofNat j))
        else none := by
  induction fuel with
  | zero => intro n i result _; simp [collect]
  | succ fuel ih =>
      intro n i result hi
      have hsize : UInt32.size = 2 ^ 32 := rfl
      have hnat : (UInt32.ofNat i).toNat = i := UInt32.toNat_ofNat_of_lt' (by omega)
      cases n with
      | zero =>
          rw [collect, if_neg (by omega)]
          simp
      | succ n =>
          have hnext : UInt32.ofNat i + 1 = UInt32.ofNat (i + 1) := (UInt32.ofNat_add i 1).symm
          rw [collect, if_pos (by omega), hnext, ih n (i + 1) _ (by omega)]
          simp [List.range'_succ]

/-- **The loop is done exactly if the size fits in 32 bits**, and then the vector holds what
was appended for each number below it. -/
theorem collects_iff {l : List α} :
    Collects size f l ↔
      size < 2 ^ 32 ∧ l = (List.range size).map fun j => f (UInt32.ofNat j) := by
  rw [Collects, List.range_eq_range']
  by_cases h : size < 2 ^ 32
  · have hloop : ∀ fuel, collect size f fuel 0 [] =
        if size < fuel then some ((List.range' 0 size).map fun j => f (UInt32.ofNat j))
        else none := fun fuel => collect_eq h fuel size 0 [] (by omega)
    simp only [hloop, h, true_and]
    constructor
    · rintro ⟨fuel, hfuel⟩
      split_ifs at hfuel
      exact (Option.some.inj hfuel).symm
    · rintro rfl
      exact ⟨size + 1, if_pos (by omega)⟩
  · simp only [collect_eq_none (Nat.le_of_not_lt h), h, reduceCtorEq, exists_false, false_and]

/-- The loop over the length of a list makes a vector that fits the list, if for each element
something is appended that fits it. -/
theorem forall₂_map_range {β : Type*} {R : α → β → Prop} {l : List β} (hfit : l.length < 2 ^ 32)
    (h : ∀ (i : UInt32) b, l[i.toNat]? = some b → R (f i) b) :
    List.Forall₂ R ((List.range l.length).map fun j => f (UInt32.ofNat j)) l := by
  rw [List.forall₂_iff_get]
  refine ⟨by simp, ?_⟩
  intro j hj hj'
  simp only [List.get_eq_getElem, List.getElem_map, List.getElem_range]
  have hnat : (UInt32.ofNat j).toNat = j := UInt32.toNat_ofNat_of_lt' (hj'.trans hfit)
  apply h _ _
  rw [hnat]
  exact List.getElem?_eq_getElem hj'

end Collect
