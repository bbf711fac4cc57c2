import Gpgmepp.PercentUnescape

/-!
# Malformed percent escapes

An escape is `%` and the two characters behind it, hex digits or not.  `xtoi_1` is meant to
take a character that is no hex digit for zero.  It tests the upper ends of the three ranges of
digits but not their lower ends, so that it takes the characters just below `A` and just below
`a` for digits, those from `:` to `@` and from `X` to the backquote.

## Main definitions

* `hexOrZero`, `lenient` — the decoder for which all other characters are zero.
* `escapeDigits` — the characters of a string that are read as digits.
* `Misread` — the characters that `xtoi_1` takes for digits.
* `percentUnescape_eq_lenient_iff` — when `percent_unescape` decodes so.
-/

namespace Gpgmepp.PercentUnescape

/-- The value of a hex digit, and zero for every other character. -/
def hexOrZero (c : UInt8) : ℕ := (hexValue c).getD 0

/-- Decoding, with each escape of the value that its hex digits give. -/
def lenient (plus2space : Bool) : StdString → StdString
  | [] => []
  | b :: hi :: lo :: rest =>
      if b = percent then
        UInt8.ofNat (16 * hexOrZero hi + hexOrZero lo) :: lenient plus2space rest
      else plain plus2space b :: lenient plus2space (hi :: lo :: rest)
  | b :: rest => plain plus2space b :: lenient plus2space rest

/-- The characters that are read as the digits of escapes. -/
def escapeDigits : StdString → List UInt8
  | b :: hi :: lo :: rest =>
      if b = percent then hi :: lo :: escapeDigits rest else escapeDigits (hi :: lo :: rest)
  | _ => []

/-- A character that is no hex digit, from `:` to `@` or from `X` to the backquote. -/
def Misread (c : UInt8) : Prop := (0x3A ≤ c ∧ c ≤ 0x40) ∨ (0x58 ≤ c ∧ c ≤ 0x60)

instance (c : UInt8) : Decidable (Misread c) := inferInstanceAs (Decidable (_ ∨ _))

/-- What `xtoi_1` makes of a character is below 16, and right unless it is misread. -/
theorem xtoi1_spec (charSigned : Bool) (c : UInt8) :
    (xtoi1 charSigned c).toNat < 16 ∧ hexOrZero c < 16 ∧
      ((xtoi1 charSigned c).toNat = hexOrZero c ↔ ¬ Misread c) := by
  have hall : ∀ n : Fin 256, ∀ charSigned : Bool,
      (xtoi1 charSigned (UInt8.ofNat n)).toNat < 16 ∧ hexOrZero (UInt8.ofNat n) < 16 ∧
        ((xtoi1 charSigned (UInt8.ofNat n)).toNat = hexOrZero (UInt8.ofNat n) ↔
          ¬ Misread (UInt8.ofNat n)) := by decide +kernel
  have hc : UInt8.ofNat (⟨c.toNat, c.toNat_lt⟩ : Fin 256) = c := UInt8.ofNat_toNat
  exact hc ▸ hall ⟨c.toNat, c.toNat_lt⟩ charSigned

/-- The value of an escape, as a number. -/
theorem toNat_escaped (charSigned : Bool) (hi lo : UInt8) :
    (escaped charSigned hi lo).toNat =
      16 * (xtoi1 charSigned hi).toNat + (xtoi1 charSigned lo).toNat := by
  have hall : ∀ h l : Fin 16,
      ((UInt32.ofNat h * 16 + UInt32.ofNat l).toInt32.toInt8.toUInt8).toNat = 16 * h + l := by
    decide +kernel
  have hval := hall ⟨_, (xtoi1_spec charSigned hi).1⟩ ⟨_, (xtoi1_spec charSigned lo).1⟩
  simp only [UInt32.ofNat_toNat] at hval
  exact hval

/-- **One escape** has the value of its hex digits exactly if neither character is misread. -/
theorem escaped_eq_iff (charSigned : Bool) (hi lo : UInt8) :
    escaped charSigned hi lo = UInt8.ofNat (16 * hexOrZero hi + hexOrZero lo) ↔
      ¬ Misread hi ∧ ¬ Misread lo := by
  obtain ⟨hhi, hhi', hiff⟩ := xtoi1_spec charSigned hi
  obtain ⟨hlo, hlo', liff⟩ := xtoi1_spec charSigned lo
  have hnat : (UInt8.ofNat (16 * hexOrZero hi + hexOrZero lo)).toNat =
      16 * hexOrZero hi + hexOrZero lo := UInt8.toNat_ofNat_of_lt' (by
    have : UInt8.size = 256 := rfl
    omega)
  rw [← UInt8.toNat_inj, toNat_escaped, hnat, ← hiff, ← liff]
  omega

/-- The two decoders agree exactly on the strings whose escapes have no misread digit. -/
theorem decode_eq_lenient_iff (charSigned plus2space : Bool) (s : StdString) :
    decode charSigned plus2space s = lenient plus2space s ↔
      ∀ c ∈ escapeDigits s, ¬ Misread c := by
  fun_induction decode charSigned plus2space s with
  | case1 => simp [lenient, escapeDigits]
  | case2 hi lo rest ih =>
      simp only [lenient, escapeDigits, if_true, List.cons.injEq, escaped_eq_iff, ih,
        List.forall_mem_cons, and_assoc]
  | case3 b hi lo rest hb ih =>
      simp only [lenient, escapeDigits, if_neg hb, List.cons.injEq, true_and, ih]
  | case4 b rest hrest ih =>
      rcases rest with _ | ⟨hi, _ | ⟨lo, rest⟩⟩
      · simp [lenient, escapeDigits, decode]
      · simp [lenient, escapeDigits, decode]
      · exact absurd rfl (hrest hi lo rest)

/-- **`percent_unescape` takes all other characters for zero, exactly if** none of the
characters in the places of digits is misread. -/
theorem percentUnescape_eq_lenient_iff (charSigned plus2space : Bool) (s : StdString) :
    percentUnescape charSigned plus2space s = .ok (lenient plus2space s) ↔
      ∀ c ∈ escapeDigits s, ¬ Misread c := by
  obtain ⟨c, hloop, h, -, hwritten⟩ := loop_spec charSigned plus2space s.length
    (inOrder_begin s) (by simp [begin, InPlace.Cursors.unread])
  have hresult : c.buffer.take c.dest = decode charSigned plus2space s := by
    simpa [begin, InPlace.Cursors.written, InPlace.Cursors.unread] using hwritten
  rw [percentUnescape, hloop]
  simp only [hresult, Except.ok.injEq, decode_eq_lenient_iff]

/-- The colon is taken for a three. -/
theorem not_percentUnescape_eq_lenient_colon :
    ¬ ∀ (charSigned plus2space : Bool) (s : StdString),
      percentUnescape charSigned plus2space s = .ok (lenient plus2space s) := by
  intro h
  have hcolon : percentUnescape true true (ascii "%:0") = .ok (ascii "0") := by decide +kernel
  have heq := Except.ok.inj (hcolon.symm.trans (h true true (ascii "%:0")))
  exact absurd heq (by decide +kernel)

end Gpgmepp.PercentUnescape
