import Mathlib.Data.List.Basic
import Mathlib.Logic.Function.Basic
import Mathlib.Tactic.Common

/-!
# Arrays in memory, and lists that a null pointer ends

Arrays that are made, written and deleted through pointers.  It is an error to use an array that
was deleted, to write behind its end, and to read what was never written.

A function that is given an array of pointers, and not how many there are, reads them up to the
first null pointer.  So what it reads is known only if there is one, and if everything in front of
it was written: `upToNull_eq_ok_iff`.  What stands behind it does not matter.

## Main definitions

* `ArrayHeap`, `ArrayHeap.make`, `ArrayHeap.put`, `ArrayHeap.delete` — arrays.
* `ArrayHeap.holding` — a heap with one more array.
* `filled` — an array that was written from its beginning on.
* `upToNull`, `ArrayHeap.readAll` — the pointers in front of the first null pointer.
-/

namespace Terminated

/-- What goes wrong with arrays. -/
inductive Stray
  /-- The array was deleted, or never made. -/
  | deleted
  | outOfBounds
  /-- The element was never written. -/
  | unset
  deriving DecidableEq

/-- The elements of an array, as far as they were written. -/
abbrev Elements (α : Type*) := List (Option α)

/-- The arrays, by the pointers to them. -/
structure ArrayHeap (α : Type*) where
  array : ℕ → Option (Elements α)
  next : ℕ

/-- Some elements are written, the first ones of `n`. -/
def filled {α : Type*} (n : ℕ) (l : List α) : Elements α :=
  l.map some ++ List.replicate (n - l.length) none

/-- The elements in front of the first null pointer. -/
def upToNull {α : Type*} : Elements (Option α) → Except Stray (List α)
  | [] => .error .outOfBounds
  | none :: _ => .error .unset
  | some none :: _ => .ok []
  | some (some a) :: es => (upToNull es).map (a :: ·)

namespace ArrayHeap

variable {α : Type*} {h : ArrayHeap α}

def empty : ArrayHeap α := ⟨fun _ => none, 0⟩

/-- There is one more array, with these elements. -/
def holding (h : ArrayHeap α) (es : Elements α) : ArrayHeap α :=
  ⟨Function.update h.array h.next (some es), h.next + 1⟩

/-- `new T[n]`. -/
def make (h : ArrayHeap α) (n : ℕ) : ℕ × ArrayHeap α :=
  (h.next, h.holding (List.replicate n none))

/-- `p[i] = a`. -/
def put (h : ArrayHeap α) (p i : ℕ) (a : α) : Except Stray (ArrayHeap α) :=
  match h.array p with
  | none => .error .deleted
  | some es =>
      if i < es.length then
        .ok { h with array := Function.update h.array p (some (es.set i (some a))) }
      else .error .outOfBounds

/-- `delete[] p`. -/
def delete (h : ArrayHeap α) (p : ℕ) : Except Stray (ArrayHeap α) :=
  match h.array p with
  | none => .error .deleted
  | some _ => .ok { h with array := Function.update h.array p none }

/-- The pointers in an array, up to the null pointer. -/
def readAll (h : ArrayHeap (Option α)) (p : ℕ) : Except Stray (List α) :=
  match h.array p with
  | none => .error .deleted
  | some es => upToNull es

/-- There are no arrays. -/
def Empty (h : ArrayHeap α) : Prop := ∀ p, h.array p = none

theorem empty_empty : (empty : ArrayHeap α).Empty := fun _ => rfl

@[simp] theorem array_holding (h : ArrayHeap α) (es : Elements α) :
    (h.holding es).array h.next = some es :=
  Function.update_self _ _ _

/-! ## The array that was made last -/

/-- An element of the new array is written. -/
theorem put_holding (a : α) {es : Elements α} {i : ℕ} (hi : i < es.length) :
    (h.holding es).put h.next i a = .ok (h.holding (es.set i (some a))) := by
  simp only [put, array_holding, if_pos hi]
  simp [holding]

/-- An element of the new array is written, behind those that were. -/
theorem put_filled (a : α) {n : ℕ} {l : List α} (hn : l.length < n) :
    (h.holding (filled n l)).put h.next l.length a = .ok (h.holding (filled n (l ++ [a]))) := by
  have hlength : l.length < (filled n l).length := by
    simp only [filled, List.length_append, List.length_map, List.length_replicate]
    omega
  have hset : (filled n l).set l.length (some a) = filled n (l ++ [a]) := by
    obtain ⟨k, hk⟩ : ∃ k, n - l.length = k + 1 := ⟨n - l.length - 1, by omega⟩
    have hk' : n - (l ++ [a]).length = k := by
      rw [List.length_append, List.length_singleton]
      omega
    rw [filled, filled, hk, hk', List.set_append_right _ _ (by simp)]
    simp [List.replicate_succ]
  rw [put_holding a hlength, hset]

/-- What the new array was made for is over. -/
theorem delete_holding (hnew : h.array h.next = none) (es : Elements α) :
    (h.holding es).delete h.next = .ok { h with next := h.next + 1 } := by
  have hback : Function.update h.array h.next none = h.array := by
    rw [← hnew, Function.update_eq_self]
  simp only [delete, array_holding]
  simp [holding, hback]

theorem readAll_holding (h : ArrayHeap (Option α)) (es : Elements (Option α)) :
    (h.holding es).readAll h.next = upToNull es := by
  rw [readAll, array_holding]

end ArrayHeap

/-! ## Up to the null pointer -/

variable {α : Type*}

/-- **What is read** is what stands in front of the first null pointer, all of it written. -/
theorem upToNull_eq_ok_iff {es : Elements (Option α)} {as : List α} :
    upToNull es = .ok as ↔ ∃ rest, es = (as.map some).map some ++ some none :: rest := by
  induction es generalizing as with
  | nil => simp [upToNull]
  | cons e es ih =>
      cases e with
      | none => cases as <;> simp [upToNull]
      | some p =>
          cases p with
          | none => cases as <;> simp [upToNull]
          | some a =>
              cases as with
              | nil => cases hes : upToNull es <;> simp [upToNull, hes, Except.map]
              | cons b bs =>
                  have hbs : upToNull es = .ok bs ↔
                      ∃ rest, es = (bs.map some).map some ++ some none :: rest := ih
                  cases hes : upToNull es with
                  | error f =>
                      rw [hes] at hbs
                      have hnone : ¬ ∃ rest, es = (bs.map some).map some ++ some none :: rest :=
                        fun hrest => by cases hbs.mpr hrest
                      simp only [List.map_map] at hnone
                      simp [upToNull, hes, Except.map, hnone]
                  | ok cs =>
                      rw [hes, Except.ok.injEq] at hbs
                      simp only [List.map_map] at hbs
                      simp [upToNull, hes, Except.map, hbs]

/-- An array that ends with a null pointer, whatever was not written behind it. -/
theorem upToNull_filled (n : ℕ) (as : List α) :
    upToNull (filled n (as.map some ++ [none])) = .ok as := by
  apply upToNull_eq_ok_iff.mpr
  exact ⟨_, by simp [filled]; rfl⟩

end Terminated
