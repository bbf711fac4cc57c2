import Mathlib.Data.UInt
import Mathlib.Data.List.TakeWhile
import Mathlib.Tactic.Common

/-!
# Strings

`std::string` holds any bytes; a `const char *` handed to the C library ends at the
first zero byte.  `CString` is the latter, its bytes before the terminator, and
carries the proof that none of them is zero, so that `strcmp` is equality and
`strlen` is the length.

## Main definitions

* `CString`, `CString.cStr` — C strings, and `std::string::c_str`.
* `CString.lit` — a string literal of the sources.
* `CString.decimal`, `CString.numeral` — an `unsigned int` written to a string stream, and
  its digits.
* `CString.line` — a string followed by a newline, as it goes over a descriptor.
-/

namespace Gpgmepp

/-- `std::string`: any bytes, zero included. -/
abbrev StdString := List UInt8

/-- The newline byte. -/
def newline : UInt8 := 10

/-- The bytes of an ASCII literal. -/
def ascii (s : String) : List UInt8 := s.toList.map fun c => c.toNat.toUInt8

/-- A zero-terminated string, without its terminator. -/
structure CString where
  bytes : List UInt8
  noNul : (0 : UInt8) ∉ bytes
  deriving DecidableEq

namespace CString

/-- `s.c_str()`, read by a function that stops at the first zero byte. -/
def cStr (s : StdString) : CString where
  bytes := s.takeWhile (· != 0)
  noNul := by
    intro h
    simpa using List.mem_takeWhile_imp h

/-- A string is its C string exactly if it has no zero byte. -/
theorem bytes_cStr_iff {s : StdString} : (cStr s).bytes = s ↔ 0 ∉ s := by
  simp only [cStr, List.takeWhile_eq_self_iff, bne_iff_ne]
  exact ⟨fun h h0 => h 0 h0 rfl, fun h b hb hb0 => h (hb0 ▸ hb)⟩

/-- C strings are equal if their bytes are. -/
theorem bytes_inj {a b : CString} : a.bytes = b.bytes ↔ a = b := by
  constructor
  · intro h
    cases a
    cases b
    simpa using h
  · exact congrArg bytes

/-- A literal of the sources. -/
def lit (s : String) : CString := cStr (ascii s)

/-- `std::stringstream ss; ss << n; ss.str().c_str()`. -/
def decimal (n : UInt32) : CString :=
  cStr ((Nat.toDigits 10 n.toNat).map fun c => c.toNat.toUInt8)

/-- A string and the newline that ends it on the wire. -/
def line (r : CString) : List UInt8 := r.bytes ++ [newline]

/-- A string that takes up one line: no newline inside. -/
def OneLine (r : CString) : Prop := newline ∉ r.bytes

instance (r : CString) : Decidable r.OneLine := inferInstanceAs (Decidable (_ ∉ _))

theorem line_ne_nil (r : CString) : r.line ≠ [] := by simp [line]

/-- The decimal digits of a number. -/
def numeral (k : ℕ) : List UInt8 := (Nat.toDigits 10 k).map fun c => c.toNat.toUInt8

theorem mem_numeral {k : ℕ} {b : UInt8} (h : b ∈ numeral k) : 48 ≤ b ∧ b ≤ 57 := by
  obtain ⟨c, hc, rfl⟩ := List.mem_map.mp h
  have hdigit := Nat.isDigit_of_mem_toDigits (by decide) (by decide) hc
  simp only [Char.isDigit, Bool.and_eq_true, decide_eq_true_eq] at hdigit
  have hlo : 48 ≤ c.toNat := by simpa [UInt32.le_iff_toNat_le] using hdigit.1
  have hhi : c.toNat ≤ 57 := by simpa [UInt32.le_iff_toNat_le] using hdigit.2
  have h48 : (48 : UInt8).toNat = 48 := rfl
  have h57 : (57 : UInt8).toNat = 57 := rfl
  simp only [UInt8.le_iff_toNat_le, UInt8.toNat_ofNat', Nat.toUInt8, h48, h57]
  omega

/-- An `unsigned int` is written with its digits, none of which ends a string. -/
theorem bytes_decimal (n : UInt32) : (decimal n).bytes = numeral n.toNat := by
  refine bytes_cStr_iff.mpr fun h0 => ?_
  exact absurd (mem_numeral h0).1 (by decide)

/-- A decimal number is written with digits only. -/
theorem mem_decimal {n : UInt32} {b : UInt8} (h : b ∈ (decimal n).bytes) : 48 ≤ b ∧ b ≤ 57 :=
  mem_numeral (bytes_decimal n ▸ h)

theorem oneLine_decimal (n : UInt32) : (decimal n).OneLine := by
  intro h
  have := (mem_decimal h).1
  revert this
  decide

end CString

end Gpgmepp
