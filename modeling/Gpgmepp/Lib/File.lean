import Gpgmepp.Lib.Overlay
import Mathlib.Algebra.BigOperators.Group.List.Basic
import Mathlib.Algebra.GroupWithZero.Nat

/-!
# Files

A file is its content and a position.  Reads and writes are at the position and move it on; it can
be moved to any place, also beyond the end, where a read delivers nothing and a write fills the
gap.

## Main definitions

* `File`, `File.read`, `File.write` — files, and one read and one write.
* `File.readAll`, `File.writeAll` — several, one after the other.
* `File.delivered_readAll`, `File.writeAll_of_atEnd` — the sizes of the pieces do not matter.
-/

namespace Files

open Overlay

variable {α : Type*}

/-- A content, and a position in it or beyond. -/
structure File (α : Type*) where
  content : List α
  pos : ℕ

namespace File

/-- What a read of at most `n` delivers, and the file then. -/
def read (f : File α) (n : ℕ) : List α × File α :=
  let d := (f.content.drop f.pos).take n
  (d, { f with pos := f.pos + d.length })

/-- The file after a write; a gap is filled with `z`. -/
def write (z : α) (f : File α) (d : List α) : File α :=
  ⟨fileWrite z f.content f.pos d, f.pos + d.length⟩

/-- Reads of several sizes. -/
def readAll (f : File α) : List ℕ → List (List α) × File α
  | [] => ([], f)
  | n :: ns => (((f.read n).1 :: ((f.read n).2.readAll ns).1), ((f.read n).2.readAll ns).2)

/-- Several writes. -/
def writeAll (z : α) (f : File α) (ds : List (List α)) : File α := ds.foldl (write z) f

/-- The position is the end. -/
def AtEnd (f : File α) : Prop := f.pos = f.content.length

/-- **Reading in pieces**: what they deliver is one after the other, as far as they go together. -/
theorem delivered_readAll (f : File α) (ns : List ℕ) :
    (f.readAll ns).1.flatten = (f.content.drop f.pos).take ns.sum := by
  induction ns generalizing f with
  | nil => simp [readAll]
  | cons n ns ih =>
      obtain ⟨l, hl⟩ : ∃ l, f.content.drop f.pos = l := ⟨_, rfl⟩
      have hrest : (f.read n).2.content.drop (f.read n).2.pos = l.drop (l.take n).length := by
        simp only [read, ← List.drop_drop, hl]
      rw [readAll, List.flatten_cons, ih, hrest, hl, List.sum_cons, List.take_add]
      simp only [read, hl]
      by_cases hn : n ≤ l.length
      · rw [List.length_take_of_le hn]
      · have hle : l.length ≤ n := by omega
        rw [List.take_of_length_le hle, List.drop_length, List.drop_eq_nil_of_le hle]

/-- A write at the end. -/
theorem write_of_atEnd {z : α} {f : File α} (h : f.AtEnd) (d : List α) :
    f.write z d = ⟨f.content ++ d, (f.content ++ d).length⟩ := by
  have hpos : f.pos = f.content.length := h
  rw [write, hpos, fileWrite_of_length_le (Nat.le_refl _), List.length_append]
  simp

/-- **Writing in pieces** at the end: they come one after the other. -/
theorem writeAll_of_atEnd {z : α} {f : File α} (h : f.AtEnd) (ds : List (List α)) :
    (f.writeAll z ds).content = f.content ++ ds.flatten ∧ (f.writeAll z ds).AtEnd := by
  induction ds generalizing f with
  | nil => exact ⟨by simp [writeAll], h⟩
  | cons d ds ih =>
      have hwrite := write_of_atEnd (z := z) h d
      have hend : (f.write z d).AtEnd := by rw [hwrite, AtEnd]
      obtain ⟨hcontent, hatEnd⟩ := ih hend
      refine ⟨?_, hatEnd⟩
      rw [writeAll, List.foldl_cons, ← writeAll, hcontent, hwrite]
      simp

end File

end Files
