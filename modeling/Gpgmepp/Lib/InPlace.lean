import Mathlib.Data.List.Basic
import Mathlib.Data.List.TakeDrop
import Mathlib.Tactic.Common

/-!
# Rewriting a buffer in place

A rewrite in place reads a buffer from one cursor and writes its results to the same
buffer from another.  As long as the second does not pass the first, nothing is overwritten
that is still to be read: what has been written and what is left to read then behave like
two lists of their own.

## Main definitions

* `Cursors` — a buffer with the two cursors, `written` and `unread` its two parts.
* `Cursors.advance` — some elements are read and one is written.
* `Cursors.InOrder` — the order of the cursors, which `advance` keeps.
-/

namespace InPlace

variable {α : Type*}

/-- A buffer that is read from `src` on and written up to `dest`. -/
structure Cursors (α : Type*) where
  buffer : List α
  src : ℕ
  dest : ℕ

namespace Cursors

/-- What has been written. -/
def written (c : Cursors α) : List α := c.buffer.take c.dest

/-- What is left to read. -/
def unread (c : Cursors α) : List α := c.buffer.drop c.src

/-- Read `k` elements and write one. -/
def advance (c : Cursors α) (k : ℕ) (x : α) : Cursors α :=
  ⟨c.buffer.set c.dest x, c.src + k, c.dest + 1⟩

/-- The writing cursor does not pass the reading one, nor this one the end. -/
structure InOrder (c : Cursors α) : Prop where
  dest_le : c.dest ≤ c.src
  src_le : c.src ≤ c.buffer.length

theorem length_unread (c : Cursors α) : c.unread.length = c.buffer.length - c.src := by
  simp [unread]

theorem unread_eq_nil_iff {c : Cursors α} (h : c.InOrder) :
    c.unread = [] ↔ c.src = c.buffer.length := by
  have := h.src_le
  rw [unread, List.drop_eq_nil_iff]
  omega

@[simp] theorem length_buffer_advance (c : Cursors α) (k : ℕ) (x : α) :
    (c.advance k x).buffer.length = c.buffer.length := by
  simp [advance]

theorem getElem?_unread (c : Cursors α) (i : ℕ) : c.unread[i]? = c.buffer[c.src + i]? := by
  simp [unread]

/-- Reading and writing keeps the order of the cursors. -/
theorem InOrder.advance {c : Cursors α} (h : c.InOrder) {k : ℕ} (x : α) (hk : 1 ≤ k)
    (hlen : k ≤ c.unread.length) : (c.advance k x).InOrder := by
  have := h.dest_le
  have := h.src_le
  rw [length_unread] at hlen
  constructor
  · simp only [Cursors.advance]
    omega
  · rw [length_buffer_advance]
    simp only [Cursors.advance]
    omega

/-- What is still to be read is not overwritten. -/
theorem InOrder.unread_advance {c : Cursors α} (h : c.InOrder) {k : ℕ} (x : α) (hk : 1 ≤ k) :
    (c.advance k x).unread = c.unread.drop k := by
  have := h.dest_le
  simp only [unread, Cursors.advance, List.drop_drop]
  rw [List.drop_set_of_lt (by omega)]

/-- What is written comes after what was written before. -/
theorem InOrder.written_advance {c : Cursors α} (h : c.InOrder) (k : ℕ) (x : α)
    (hlen : 0 < c.unread.length) : (c.advance k x).written = c.written ++ [x] := by
  have := h.dest_le
  rw [length_unread] at hlen
  simp only [written, Cursors.advance]
  rw [List.take_add_one, List.take_set_of_le (Nat.le_refl _), List.getElem?_set_self (by omega)]
  rfl

end Cursors

end InPlace
