import Mathlib.Data.Multiset.Fold
import Mathlib.Data.UInt
import Mathlib.Tactic.Common

/-!
# Words of flags

A set of flags in a word, the union of several, and the translation to another numbering of the
same flags: one test for each flag, in the order of a table.

## Main definitions

* `hasFlag`, `convertFlags` — the test of a flag, and the translation.
* `addFlags` — the translation, to a word that has flags already.
* `foldl_or_congr` — a union depends on the words only, not on their order.
* `hasFlag_convertFlags` — the translation keeps each flag of the table, whatever the others.
* `hasFlag_addFlags` — the same, with a table from which some flags are left out.
-/

namespace Flags

variable {word flag : UInt32} {table : List (UInt32 × UInt32)}

/-- `word & flag`, as a condition. -/
def hasFlag (word flag : UInt32) : Bool := word &&& flag != 0

/-- `if (word & mask) result |= flag;` for each pair of the table. -/
def convertFlags (table : List (UInt32 × UInt32)) (word : UInt32) : UInt32 :=
  table.foldl (fun result (mask, flag) => if hasFlag word mask then result ||| flag else result) 0

theorem hasFlag_or (a b flag : UInt32) :
    hasFlag (a ||| b) flag = (hasFlag a flag || hasFlag b flag) := by
  have hdistrib : (a ||| b) &&& flag = (a &&& flag) ||| (b &&& flag) := by
    rw [← UInt32.toBitVec_inj]
    simp only [UInt32.toBitVec_and, UInt32.toBitVec_or, BitVec.and_or_distrib_right]
  rw [Bool.eq_iff_iff, Bool.or_eq_true]
  simp only [hasFlag, hdistrib, bne_iff_ne, ne_eq, UInt32.or_eq_zero_iff, not_and_or]

@[simp] theorem hasFlag_zero (flag : UInt32) : hasFlag 0 flag = false := by simp [hasFlag]

/-- **The union of some words** does not depend on their order, or on how often each comes. -/
theorem foldl_or_congr {l l' : List UInt32} (h : ∀ a, a ∈ l ↔ a ∈ l') (b : UInt32) :
    l.foldl (· ||| ·) b = l'.foldl (· ||| ·) b := by
  have hdedup : (l : Multiset UInt32).dedup = (l' : Multiset UInt32).dedup :=
    Multiset.dedup_ext.mpr (by simpa using h)
  rw [← Multiset.coe_fold_l, ← Multiset.coe_fold_l, ← Multiset.fold_dedup_idem, hdedup,
    Multiset.fold_dedup_idem]

/-- A flag of the translation comes from some pair of the table. -/
theorem hasFlag_convertFlags_any :
    hasFlag (convertFlags table word) flag =
      table.any fun p => hasFlag word p.1 && hasFlag p.2 flag := by
  have hfold : ∀ result : UInt32,
      hasFlag (table.foldl (fun result (mask, flag) =>
        if hasFlag word mask then result ||| flag else result) result) flag =
      (hasFlag result flag || table.any fun p => hasFlag word p.1 && hasFlag p.2 flag) := by
    induction table with
    | nil => simp
    | cons p ps ih =>
        intro result
        rw [List.foldl_cons, List.any_cons, ih]
        cases hmask : hasFlag word p.1 with
        | false => simp [hmask]
        | true => simp [hmask, hasFlag_or, Bool.or_assoc]
  simpa [convertFlags] using hfold 0

/-- **The translation keeps each flag** of an enumeration whose values are disjoint. -/
theorem hasFlag_convertFlags {ι : Type*} {all : List ι} {mask value : ι → UInt32} {f : ι}
    (hmem : f ∈ all) (hdisjoint : ∀ g, hasFlag (value g) (value f) = true ↔ g = f) :
    hasFlag (convertFlags (all.map fun g => (mask g, value g)) word) (value f) =
      hasFlag word (mask f) := by
  rw [hasFlag_convertFlags_any, Bool.eq_iff_iff, List.any_map, List.any_eq_true]
  simp only [Function.comp_apply, Bool.and_eq_true, hdisjoint]
  constructor
  · rintro ⟨g, -, hmask, rfl⟩
    exact hmask
  · intro hmask
    exact ⟨f, hmem, hmask, rfl⟩

/-! ## Translations to a word that has flags already -/

/-- `if (word & mask) old |= flag;` for each pair of the table. -/
def addFlags (table : List (UInt32 × UInt32)) (old word : UInt32) : UInt32 :=
  table.foldl (fun old (mask, flag) => if hasFlag word mask then old ||| flag else old) old

theorem addFlags_zero (table : List (UInt32 × UInt32)) (word : UInt32) :
    addFlags table 0 word = convertFlags table word :=
  rfl

/-- A flag was there, or comes from some pair of the table. -/
theorem hasFlag_addFlags_any (old : UInt32) :
    hasFlag (addFlags table old word) flag =
      (hasFlag old flag || hasFlag (convertFlags table word) flag) := by
  rw [hasFlag_convertFlags_any, addFlags]
  induction table generalizing old with
  | nil => simp
  | cons p ps ih =>
      rw [List.foldl_cons, List.any_cons, ih]
      cases hmask : hasFlag word p.1 with
      | false => simp [hmask]
      | true => simp [hmask, hasFlag_or, Bool.or_assoc]

section Selection
variable {ι : Type*} {all : List ι} {mask value : ι → UInt32} {f : ι}

/-- **The translation of the flags that are left** keeps each of them, and adds none. -/
theorem hasFlag_convertFlags_filter (p : ι → Bool) (hmem : f ∈ all)
    (hdisjoint : ∀ g, hasFlag (value g) (value f) = true ↔ g = f) :
    hasFlag (convertFlags ((all.filter p).map fun g => (mask g, value g)) word) (value f) =
      (p f && hasFlag word (mask f)) := by
  rw [hasFlag_convertFlags_any, Bool.eq_iff_iff, List.any_map, List.any_eq_true]
  simp only [Function.comp_apply, Bool.and_eq_true, hdisjoint, List.mem_filter]
  constructor
  · rintro ⟨g, ⟨-, hp⟩, hmask, rfl⟩
    exact ⟨hp, hmask⟩
  · rintro ⟨hp, hmask⟩
    exact ⟨f, ⟨hmem, hp⟩, hmask, rfl⟩

/-- **The flags that are left** are joined to those that were there. -/
theorem hasFlag_addFlags (p : ι → Bool) (old : UInt32) (hmem : f ∈ all)
    (hdisjoint : ∀ g, hasFlag (value g) (value f) = true ↔ g = f) :
    hasFlag (addFlags ((all.filter p).map fun g => (mask g, value g)) old word) (value f) =
      (hasFlag old (value f) || p f && hasFlag word (mask f)) := by
  rw [hasFlag_addFlags_any, hasFlag_convertFlags_filter p hmem hdisjoint]

end Selection

end Flags
