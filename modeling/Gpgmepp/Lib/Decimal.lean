import Mathlib.Data.UInt
import Mathlib.Tactic.Common

/-!
# Numbers in texts

An unsigned number at the start of a text, as a formatted extraction finds it: behind white space
and a plus sign, up to the first byte that is no digit.  It is not there if there is no digit, or
if it does not fit.  A number with a minus sign is up to the library.

## Main definitions

* `digits`, `value` — the digits of a number, and the number of some digits.
* `extractUnsigned` — the number of 32 bits at the start of a text.
* `extractUnsigned_digits` — the number that was written is extracted, if it fits.
-/

namespace Decimal

/-- `isspace`, of the bytes of ASCII. -/
def isSpace (b : UInt8) : Bool := b == 32 || (9 ≤ b && b ≤ 13)

/-- `isdigit`. -/
def isDigit (b : UInt8) : Bool := 48 ≤ b && b ≤ 57

/-- A number is written with its decimal digits. -/
def digits (n : ℕ) : List UInt8 := (Nat.toDigits 10 n).map fun c => c.toNat.toUInt8

/-- The number of some digits. -/
def value (ds : List UInt8) : ℕ := ds.foldl (fun n b => 10 * n + (b.toNat - 48)) 0

/-- The number of some digits, if there are any, and it fits. -/
def unsignedOf (ds : List UInt8) : Option UInt32 :=
  if ds = [] ∨ 2 ^ 32 ≤ value ds then none else some (UInt32.ofNat (value ds))

/-- `ss >> result`, for an unsigned number of 32 bits; with what it makes of the text behind a minus
sign. -/
def extractUnsigned (negative : List UInt8 → Option UInt32) (s : List UInt8) : Option UInt32 :=
  match s.dropWhile isSpace with
  | 45 :: s => negative s
  | 43 :: s => unsignedOf (s.takeWhile isDigit)
  | s => unsignedOf (s.takeWhile isDigit)

theorem isDigit_iff {b : UInt8} : isDigit b = true ↔ 48 ≤ b.toNat ∧ b.toNat ≤ 57 := by
  have h48 : (48 : UInt8).toNat = 48 := rfl
  have h57 : (57 : UInt8).toNat = 57 := rfl
  simp only [isDigit, Bool.and_eq_true, decide_eq_true_eq, UInt8.le_iff_toNat_le, h48, h57]

/-- A digit is neither white space nor a sign. -/
theorem isSpace_of_isDigit {b : UInt8} (h : isDigit b = true) :
    isSpace b = false ∧ b ≠ 45 ∧ b ≠ 43 := by
  obtain ⟨hlo, -⟩ := isDigit_iff.mp h
  have hne : ∀ c : UInt8, c.toNat < 48 → b ≠ c := by
    rintro c hc rfl
    omega
  have h13 : (13 : UInt8).toNat = 13 := rfl
  refine ⟨?_, hne 45 (by decide), hne 43 (by decide)⟩
  simp only [isSpace, Bool.or_eq_false_iff, beq_eq_false_iff_ne, Bool.and_eq_false_iff,
    decide_eq_false_iff_not, UInt8.le_iff_toNat_le, h13]
  exact ⟨hne 32 (by decide), .inr (by omega)⟩

theorem toNat_toUInt8 {c : Char} (h : c.isDigit) : c.toNat.toUInt8.toNat = c.toNat := by
  simp only [Char.isDigit, Bool.and_eq_true, decide_eq_true_eq] at h
  have hhi : c.toNat ≤ 57 := by simpa [UInt32.le_iff_toNat_le] using h.2
  simp only [Nat.toUInt8, UInt8.toNat_ofNat']
  omega

theorem isDigit_of_mem_digits {n : ℕ} {b : UInt8} (h : b ∈ digits n) : isDigit b = true := by
  obtain ⟨c, hc, rfl⟩ := List.mem_map.mp h
  have hdigit := Nat.isDigit_of_mem_toDigits (by decide) (by decide) hc
  rw [isDigit_iff, toNat_toUInt8 hdigit]
  simp only [Char.isDigit, Bool.and_eq_true, decide_eq_true_eq] at hdigit
  exact ⟨by simpa [UInt32.le_iff_toNat_le] using hdigit.1,
    by simpa [UInt32.le_iff_toNat_le] using hdigit.2⟩

theorem digits_ne_nil (n : ℕ) : digits n ≠ [] := by
  simp [digits, Nat.toDigits_ne_nil]

/-- The digits of a number are those of the number. -/
theorem value_digits (n : ℕ) : value (digits n) = n := by
  have hfold : ∀ (l : List Char) (k : ℕ), (∀ c ∈ l, c.isDigit) →
      (l.map fun c => c.toNat.toUInt8).foldl (fun n b => 10 * n + (b.toNat - 48)) k =
        Nat.ofDigitChars 10 l k := by
    intro l
    induction l with
    | nil => intro k _; rfl
    | cons c l ih =>
        intro k hl
        have hc := toNat_toUInt8 (hl c List.mem_cons_self)
        rw [List.map_cons, List.foldl_cons, ih _ fun d hd => hl d (List.mem_cons_of_mem c hd),
          Nat.ofDigitChars_cons, hc]
        rfl
  rw [value, digits, hfold _ _ fun c hc => Nat.isDigit_of_mem_toDigits (by decide) (by decide) hc]
  exact Nat.ofDigitChars_ten_toDigits

/-- **A number that was written is extracted**, from behind white space and in front of anything
but a digit, exactly if it fits. -/
theorem extractUnsigned_digits (negative : List UInt8 → Option UInt32) {space rest : List UInt8}
    (hspace : ∀ b ∈ space, isSpace b = true) (n : ℕ)
    (hrest : ∀ b ∈ rest.head?, isDigit b = false) :
    extractUnsigned negative (space ++ (digits n ++ rest)) =
      if n < 2 ^ 32 then some (UInt32.ofNat n) else none := by
  obtain ⟨b, ds, hds⟩ := List.exists_cons_of_ne_nil (digits_ne_nil n)
  obtain ⟨hnospace, hminus, hplus⟩ :=
    isSpace_of_isDigit (isDigit_of_mem_digits (hds ▸ List.mem_cons_self : b ∈ digits n))
  have hdrop : (space ++ (digits n ++ rest)).dropWhile isSpace = digits n ++ rest := by
    rw [List.dropWhile_append_of_pos hspace, hds]
    simp [hnospace]
  have htake : (digits n ++ rest).takeWhile isDigit = digits n := by
    rw [List.takeWhile_append_of_pos fun b hb => isDigit_of_mem_digits hb]
    cases rest with
    | nil => simp
    | cons c rest => simp [hrest c (by simp)]
  have hvalue : unsignedOf (digits n) = if n < 2 ^ 32 then some (UInt32.ofNat n) else none := by
    simp only [unsignedOf, digits_ne_nil, false_or, value_digits]
    by_cases hn : n < 2 ^ 32
    · rw [if_neg (by omega), if_pos hn]
    · rw [if_pos (by omega), if_neg hn]
  rw [extractUnsigned, hdrop, ← hvalue]
  split
  · next heq => exact absurd (List.cons.inj (hds ▸ heq)).1 hminus
  · next heq => exact absurd (List.cons.inj (hds ▸ heq)).1 hplus
  · rw [htake]

end Decimal
