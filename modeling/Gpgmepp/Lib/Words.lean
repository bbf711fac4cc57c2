import Mathlib.Data.Nat.Bitwise
import Mathlib.Data.UInt
import Mathlib.Tactic.Common

/-!
# Words as sets of bits

A word of 64 bits stands for the set of its bits.  The union of some words and the test that a
word contains all bits of another are operations on these sets.

## Main definitions

* `hasBit`, `bit` — a bit of a word, and the word that has one bit only.
* `union`, `contains` — the union of some words, and the test.
* `contains_union` — a union is contained exactly if each of the words is.
-/

namespace Words

variable {word flags : UInt64}

/-- The bit at place `i`. -/
def hasBit (word : UInt64) (i : ℕ) : Bool := word.toNat.testBit i

/-- The word with the bit at place `n` only. -/
def bit (n : ℕ) : UInt64 := UInt64.ofNat (2 ^ n)

/-- The words, joined by `|`. -/
def union (words : List UInt64) : UInt64 := words.foldl (· ||| ·) 0

/-- `flags == (flags & word)`. -/
def contains (word flags : UInt64) : Bool := flags == flags &&& word

@[simp] theorem hasBit_zero (i : ℕ) : hasBit 0 i = false := by simp [hasBit]

@[simp] theorem hasBit_or (a b : UInt64) (i : ℕ) :
    hasBit (a ||| b) i = (hasBit a i || hasBit b i) := by
  simp [hasBit]

@[simp] theorem hasBit_and (a b : UInt64) (i : ℕ) :
    hasBit (a &&& b) i = (hasBit a i && hasBit b i) := by
  simp [hasBit]

theorem hasBit_bit {n : ℕ} (h : n < 64) (i : ℕ) : hasBit (bit n) i = decide (n = i) := by
  have hlt : 2 ^ n < 2 ^ 64 := Nat.pow_lt_pow_right (by decide) h
  rw [hasBit, bit, UInt64.toNat_ofNat', Nat.mod_eq_of_lt hlt, Nat.testBit_two_pow]

/-- Words with the same bits are equal. -/
theorem ext_hasBit {a b : UInt64} (h : ∀ i, hasBit a i = hasBit b i) : a = b :=
  UInt64.toNat.inj (Nat.eq_of_testBit_eq h)

/-- A bit of a union is a bit of one of the words. -/
theorem hasBit_union (words : List UInt64) (i : ℕ) :
    hasBit (union words) i = words.any (hasBit · i) := by
  have hfold : ∀ a : UInt64, hasBit (words.foldl (· ||| ·) a) i =
      (hasBit a i || words.any (hasBit · i)) := by
    induction words with
    | nil => simp
    | cons w ws ih =>
        intro a
        rw [List.foldl_cons, ih, hasBit_or, List.any_cons, Bool.or_assoc]
  simpa [union] using hfold 0

/-- The test, bit by bit. -/
theorem contains_iff :
    contains word flags = true ↔ ∀ i, hasBit flags i = true → hasBit word i = true := by
  rw [contains, beq_iff_eq]
  constructor
  · intro h i hi
    have hboth := congrArg (hasBit · i) h
    simp only [hasBit_and, hi, Bool.true_and] at hboth
    exact hboth.symm
  · intro h
    refine ext_hasBit fun i => ?_
    rw [hasBit_and]
    cases hi : hasBit flags i with
    | false => rfl
    | true => rw [h i hi, Bool.and_true]

/-- **A union is contained exactly if each of the words is.** -/
theorem contains_union (word : UInt64) (words : List UInt64) :
    contains word (union words) = words.all (contains word) := by
  rw [Bool.eq_iff_iff, contains_iff, List.all_eq_true]
  simp only [contains_iff, hasBit_union, List.any_eq_true]
  constructor
  · exact fun h w hw i hi => h i ⟨w, hw, hi⟩
  · rintro h i ⟨w, hw, hi⟩
    exact h w hw i hi

end Words
