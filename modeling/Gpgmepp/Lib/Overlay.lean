import Mathlib.Data.List.Basic
import Mathlib.Tactic.Common

/-!
# Writing into a list at an offset

`overlay` replaces a segment of a list, as copying into a buffer does.  `fileWrite` is
what writing at an offset does to a file: the bytes before the offset stay, a gap is
filled, and what lies beyond the written bytes stays too.

## Main definitions

* `overlay l off src` — `src` in place of the elements of `l` from `off` on.
* `fileWrite z l p d` — a file with content `l` after `d` was written at `p`.
-/

namespace Overlay

variable {α : Type*}

/-- The list `l` with `src` written over its elements from `off` on. -/
def overlay (l : List α) (off : ℕ) (src : List α) : List α :=
  l.take off ++ src ++ l.drop (off + src.length)

/-- Within bounds the length stays. -/
theorem length_overlay {l src : List α} {off : ℕ} (h : off + src.length ≤ l.length) :
    (overlay l off src).length = l.length := by
  simp only [overlay, List.length_append, List.length_take, List.length_drop]
  omega

/-- Writing right after a beginning of the list. -/
theorem overlay_append (l r src : List α) :
    overlay (l ++ r) l.length src = l ++ src ++ r.drop src.length := by
  simp [overlay, List.drop_append]

/-- A file with content `l` after `d` was written at position `p`: a gap between the end
and `p` is filled with `z`. -/
def fileWrite (z : α) (l : List α) (p : ℕ) (d : List α) : List α :=
  l.take p ++ List.replicate (p - l.length) z ++ d ++ l.drop (p + d.length)

/-- A write inside the file is an overlay. -/
theorem fileWrite_of_le {z : α} {l d : List α} {p : ℕ} (h : p + d.length ≤ l.length) :
    fileWrite z l p d = overlay l p d := by
  have hgap : p - l.length = 0 := by omega
  simp [fileWrite, overlay, hgap]

/-- A write at the end or beyond extends the file. -/
theorem fileWrite_of_length_le {z : α} {l d : List α} {p : ℕ} (h : l.length ≤ p) :
    fileWrite z l p d = l ++ List.replicate (p - l.length) z ++ d := by
  have hrest : l.drop (p + d.length) = [] := List.drop_eq_nil_of_le (by omega)
  simp [fileWrite, List.take_of_length_le h, hrest]

/-- Such a write can be done in two steps: padding with `z` to the size there will be, and
an overlay. -/
theorem overlay_padded {z : α} {l d : List α} {p : ℕ} (h : l.length ≤ p) :
    overlay (l ++ List.replicate (p + d.length - l.length) z) p d = fileWrite z l p d := by
  have hsplit : List.replicate (p + d.length - l.length) z =
      List.replicate (p - l.length) z ++ List.replicate d.length z := by
    rw [List.replicate_append_replicate]
    congr 1
    omega
  have hp : (l ++ List.replicate (p - l.length) z).length = p := by
    rw [List.length_append, List.length_replicate]
    omega
  have hover := overlay_append (l ++ List.replicate (p - l.length) z)
    (List.replicate d.length z) d
  rw [hp] at hover
  rw [hsplit, ← List.append_assoc, hover, fileWrite_of_length_le h]
  simp

end Overlay
