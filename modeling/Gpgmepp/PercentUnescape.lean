import Gpgmepp.CString
import Gpgmepp.Lib.InPlace
import Mathlib.Logic.Relation

/-!
# Percent escapes

Assuan sends the arguments of a status line percent-escaped; `percent_unescape` decodes
them in place.  One iterator reads the string, another writes what was decoded to the same
string, and in the end the string is cut where the second one stands.

`decode` is the decoder without the iterators, and the loop agrees with it on every string:
`loop_spec`.  On the encodings of a string it gives the string back: `decode_of_encodes`.

## Main definitions

* `xtoi1`, `xtoi2` — hex digits as the source reads them.
* `round`, `loop`, `percentUnescape` — the function of the source.
* `decode` — decoding, list to list.
* `Encodes` — the encodings of a string.
* `percentUnescape_law` — what `percent_unescape` computes, and how its iterators move.
-/

namespace Gpgmepp.PercentUnescape

open InPlace

/-! ## Hex digits -/

/-- `xtoi_1`, with a `char` that is signed or not.  The differences are of type
`unsigned int` and wrap around. -/
def xtoi1 (charSigned : Bool) (c : UInt8) : UInt32 :=
  let ch : UInt32 := if charSigned then c.toInt8.toInt32.toUInt32 else c.toUInt32
  let result :=
    if ch ≤ 0x39 then ch - 0x30
    else if ch ≤ 0x46 then ch - 0x41 + 10
    else ch - 0x61 + 10
  if result < 16 then result else 0

/-- `xtoi_2`, of the two characters it reads. -/
def xtoi2 (charSigned : Bool) (hi lo : UInt8) : Int32 :=
  (xtoi1 charSigned hi * 16 + xtoi1 charSigned lo).toInt32

/-- The `char` that an escape stands for. -/
def escaped (charSigned : Bool) (hi lo : UInt8) : UInt8 := (xtoi2 charSigned hi lo).toInt8.toUInt8

/-! ## The loop -/

/-- The characters `%`, `+` and the space. -/
def percent : UInt8 := 0x25

def plus : UInt8 := 0x2B

def space : UInt8 := 0x20

/-- Why a loop gives no result: an iterator leaves the string, or the rounds run out. -/
inductive Stuck | outOfRange | outOfFuel
  deriving DecidableEq

/-- `*dest++ = x`, and the reading iterator moves on by `k`. -/
def put (c : Cursors UInt8) (k : ℕ) (x : UInt8) : Except Stuck (Cursors UInt8) :=
  if c.dest < c.buffer.length ∧ c.src + k ≤ c.buffer.length then .ok (c.advance k x)
  else .error .outOfRange

/-- One round of the loop of `percent_unescape`. -/
def round (charSigned plus2space : Bool) (c : Cursors UInt8) : Except Stuck (Cursors UInt8) :=
  match c.buffer[c.src]? with
  | none => .error .outOfRange
  | some b =>
      if b = percent ∧ (c.buffer.length : ℤ) - c.src > 2 then
        match c.buffer[c.src + 1]?, c.buffer[c.src + 2]? with
        | some hi, some lo => put c 3 (escaped charSigned hi lo)
        | _, _ => .error .outOfRange
      else if b = plus ∧ plus2space then put c 1 space
      else put c 1 b

/-- The loop, for at most as many rounds as stated. -/
def loop (charSigned plus2space : Bool) : ℕ → Cursors UInt8 → Except Stuck (Cursors UInt8)
  | fuel, c =>
      if c.src = c.buffer.length then .ok c
      else
        match fuel with
        | 0 => .error .outOfFuel
        | fuel + 1 =>
            match round charSigned plus2space c with
            | .error f => .error f
            | .ok c => loop charSigned plus2space fuel c

/-- The iterators before the loop. -/
def begin (s : StdString) : Cursors UInt8 := ⟨s, 0, 0⟩

/-- `percent_unescape(s, plus2space)`: the string it leaves. -/
def percentUnescape (charSigned plus2space : Bool) (s : StdString) : Except Stuck StdString :=
  match loop charSigned plus2space s.length (begin s) with
  | .error f => .error f
  | .ok c => .ok (c.buffer.take c.dest)

/-! ## Decoding -/

/-- A character outside of escapes. -/
def plain (plus2space : Bool) (b : UInt8) : UInt8 := if b = plus ∧ plus2space then space else b

/-- Decoding without iterators: an escape needs two more characters, whatever they are. -/
def decode (charSigned plus2space : Bool) : StdString → StdString
  | [] => []
  | b :: hi :: lo :: rest =>
      if b = percent then escaped charSigned hi lo :: decode charSigned plus2space rest
      else plain plus2space b :: decode charSigned plus2space (hi :: lo :: rest)
  | b :: rest => plain plus2space b :: decode charSigned plus2space rest

/-- The value of a hex digit of either case. -/
def hexValue (d : UInt8) : Option ℕ :=
  if 0x30 ≤ d ∧ d ≤ 0x39 then some (d.toNat - 0x30)
  else if 0x41 ≤ d ∧ d ≤ 0x46 then some (d.toNat - 0x41 + 10)
  else if 0x61 ≤ d ∧ d ≤ 0x66 then some (d.toNat - 0x61 + 10)
  else none

/-- The encodings of a string.  If `+` stands for a space, it is not itself written
literally. -/
inductive Encodes (plus2space : Bool) : StdString → StdString → Prop
  | nil : Encodes plus2space [] []
  | literal {b : UInt8} {s e : StdString} (hb : b ≠ percent)
      (hplus : plus2space = true → b ≠ plus) (h : Encodes plus2space s e) :
      Encodes plus2space (b :: s) (b :: e)
  | escape {b hi lo : UInt8} {h l : ℕ} {s e : StdString} (hhi : hexValue hi = some h)
      (hlo : hexValue lo = some l) (hb : b.toNat = 16 * h + l) (he : Encodes plus2space s e) :
      Encodes plus2space (b :: s) (percent :: hi :: lo :: e)
  | space {s e : StdString} (hplus : plus2space = true) (h : Encodes plus2space s e) :
      Encodes plus2space (PercentUnescape.space :: s) (plus :: e)

/-! ## Encodings -/

/-- A hex digit has its value, whether `char` is signed or not. -/
theorem xtoi1_of_hexValue (charSigned : Bool) {d : UInt8} {v : ℕ} (h : hexValue d = some v) :
    v < 16 ∧ xtoi1 charSigned d = UInt32.ofNat v := by
  have hall : ∀ n : Fin 256, ∀ charSigned : Bool, ∀ v ∈ hexValue (UInt8.ofNat n),
      v < 16 ∧ xtoi1 charSigned (UInt8.ofNat n) = UInt32.ofNat v := by decide +kernel
  have hd : UInt8.ofNat (⟨d.toNat, d.toNat_lt⟩ : Fin 256) = d := UInt8.ofNat_toNat
  exact hd ▸ hall ⟨d.toNat, d.toNat_lt⟩ charSigned v (hd.symm ▸ h)

/-- Two hex digits stand for the character that has their value. -/
theorem escaped_of_hexValue (charSigned : Bool) {b hi lo : UInt8} {h l : ℕ}
    (hhi : hexValue hi = some h) (hlo : hexValue lo = some l) (hb : b.toNat = 16 * h + l) :
    escaped charSigned hi lo = b := by
  have hall : ∀ h l : Fin 16, (UInt32.ofNat h * 16 + UInt32.ofNat l).toInt32.toInt8.toUInt8 =
      UInt8.ofNat (16 * h + l) := by decide +kernel
  obtain ⟨hh, hxhi⟩ := xtoi1_of_hexValue charSigned hhi
  obtain ⟨hl, hxlo⟩ := xtoi1_of_hexValue charSigned hlo
  rw [escaped, xtoi2, hxhi, hxlo]
  have hval := hall ⟨h, hh⟩ ⟨l, hl⟩
  simp only [← hb] at hval
  rw [hval, UInt8.ofNat_toNat]

/-- Decoding a character that begins no escape. -/
theorem decode_cons_of_not (charSigned plus2space : Bool) {b : UInt8} {s : StdString}
    (h : ¬ (b = percent ∧ 2 ≤ s.length)) :
    decode charSigned plus2space (b :: s) =
      plain plus2space b :: decode charSigned plus2space s := by
  rcases s with _ | ⟨hi, _ | ⟨lo, rest⟩⟩
  · rfl
  · rfl
  · have hb : b ≠ percent := fun hb => h ⟨hb, by simp⟩
    rw [decode, if_neg hb]

/-- **Decoding undoes encoding.** -/
theorem decode_of_encodes (charSigned : Bool) {plus2space : Bool} {s e : StdString}
    (h : Encodes plus2space s e) : decode charSigned plus2space e = s := by
  induction h with
  | nil => rfl
  | @literal b s e hb hplus _ ih =>
      have hplain : plain plus2space b = b := if_neg fun hp => hplus hp.2 hp.1
      rw [decode_cons_of_not charSigned plus2space fun h => hb h.1, hplain, ih]
  | escape hhi hlo hb _ ih =>
      rw [decode, if_pos rfl, escaped_of_hexValue charSigned hhi hlo hb, ih]
  | space hplus _ ih =>
      have hplain : plain plus2space plus = space := if_pos ⟨rfl, hplus⟩
      rw [decode_cons_of_not charSigned plus2space fun h => absurd h.1 (by decide), hplain, ih]

/-! ## The loop agrees with the decoder -/

/-- What a round writes stays within the string. -/
theorem put_eq {c : Cursors UInt8} (h : c.InOrder) {k : ℕ} (x : UInt8) (hk : 1 ≤ k)
    (hlen : k ≤ c.unread.length) : put c k x = .ok (c.advance k x) := by
  have := h.dest_le
  have := h.src_le
  rw [Cursors.length_unread] at hlen
  exact if_pos (by omega)

/-- **One round**: it reads at least one character and writes one, as the decoder does. -/
theorem round_spec (charSigned plus2space : Bool) {c : Cursors UInt8} (h : c.InOrder)
    (hne : c.src ≠ c.buffer.length) :
    ∃ k x, round charSigned plus2space c = .ok (c.advance k x) ∧ 1 ≤ k ∧ k ≤ c.unread.length ∧
      decode charSigned plus2space c.unread =
        x :: decode charSigned plus2space (c.unread.drop k) := by
  have hsrc := h.src_le
  have hlen := c.length_unread
  cases hu : c.unread with
  | nil => exact absurd ((Cursors.unread_eq_nil_iff h).mp hu) hne
  | cons b rest =>
      have hb : c.buffer[c.src]? = some b := by
        rw [← Nat.add_zero c.src, ← c.getElem?_unread, hu]
        rfl
      rw [hu] at hlen
      by_cases hesc : b = percent ∧ 2 ≤ rest.length
      · -- an escape
        rcases rest with _ | ⟨hi, _ | ⟨lo, rest⟩⟩
        · simp at hesc
        · simp at hesc
        have hhi : c.buffer[c.src + 1]? = some hi := by rw [← c.getElem?_unread, hu]; rfl
        have hlo : c.buffer[c.src + 2]? = some lo := by rw [← c.getElem?_unread, hu]; rfl
        have hroom : b = percent ∧ (c.buffer.length : ℤ) - c.src > 2 := by
          simp only [List.length_cons] at hlen
          exact ⟨hesc.1, by omega⟩
        refine ⟨3, escaped charSigned hi lo, ?_, by decide, by simp, ?_⟩
        · simp only [round, hb, hroom, hhi, hlo]
          exact put_eq h _ (by decide) (by rw [hu]; simp)
        · rw [decode, if_pos hesc.1]
          rfl
      · -- one character
        have hroom : ¬ (b = percent ∧ (c.buffer.length : ℤ) - c.src > 2) := by
          rintro ⟨hp, hlt⟩
          simp only [List.length_cons] at hlen
          exact hesc ⟨hp, by omega⟩
        refine ⟨1, plain plus2space b, ?_, le_rfl, by simp, ?_⟩
        · have hput : (if b = plus ∧ plus2space then put c 1 space else put c 1 b) =
              put c 1 (plain plus2space b) := by
            simp only [plain]
            split_ifs <;> rfl
          simp only [round, hb, if_neg hroom, hput]
          exact put_eq h _ le_rfl (by rw [hu]; simp)
        · exact decode_cons_of_not charSigned plus2space hesc

/-- **The loop** ends where the string ends, and what it writes is what the decoder makes of
the characters that were left. -/
theorem loop_spec (charSigned plus2space : Bool) :
    ∀ (fuel : ℕ) {c : Cursors UInt8}, c.InOrder → c.unread.length ≤ fuel →
      ∃ c', loop charSigned plus2space fuel c = .ok c' ∧ c'.InOrder ∧
        c'.src = c'.buffer.length ∧
        c'.written = c.written ++ decode charSigned plus2space c.unread := by
  intro fuel
  induction fuel with
  | zero =>
      intro c h hfuel
      have hnil : c.unread = [] := List.length_eq_zero_iff.mp (by omega)
      have hend := (Cursors.unread_eq_nil_iff h).mp hnil
      exact ⟨c, by rw [loop, if_pos hend], h, hend, by simp [hnil, decode]⟩
  | succ fuel ih =>
      intro c h hfuel
      by_cases hend : c.src = c.buffer.length
      · have hnil := (Cursors.unread_eq_nil_iff h).mpr hend
        exact ⟨c, by rw [loop, if_pos hend], h, hend, by simp [hnil, decode]⟩
      · obtain ⟨k, x, hround, hk, hlen, hdecode⟩ := round_spec charSigned plus2space h hend
        have hunread := h.unread_advance x hk
        obtain ⟨c', hloop, h', hend', hwritten⟩ := ih (h.advance x hk hlen) (by
          rw [hunread, List.length_drop]
          omega)
        refine ⟨c', ?_, h', hend', ?_⟩
        · rw [loop, if_neg hend]
          simp only [hround, hloop]
        · rw [hwritten, h.written_advance k x (by omega), hunread, hdecode, List.append_assoc]
          rfl

/-- The states that the loop goes through. -/
def Reaches (charSigned plus2space : Bool) (s : StdString) : Cursors UInt8 → Prop :=
  Relation.ReflTransGen
    (fun c c' => c.src ≠ c.buffer.length ∧ round charSigned plus2space c = .ok c') (begin s)

theorem inOrder_begin (s : StdString) : (begin s).InOrder := ⟨le_rfl, Nat.zero_le _⟩

theorem inOrder_of_reaches {charSigned plus2space : Bool} {s : StdString} {c : Cursors UInt8}
    (h : Reaches charSigned plus2space s c) : c.InOrder := by
  induction h with
  | refl => exact inOrder_begin s
  | tail _ hstep ih =>
      obtain ⟨k, x, hround, hk, hlen, _⟩ := round_spec charSigned plus2space ih hstep.1
      obtain rfl := Except.ok.inj (hround.symm.trans hstep.2)
      exact ih.advance x hk hlen

/-- **What `percent_unescape` computes.**  It undoes every encoding.  On every string it
agrees with the decoder, and the string is cut behind the last character written.  In every
state of the loop the writing iterator is not ahead of the reading one; a round reads at
least one character, none of them beyond the end, and writes one. -/
theorem percentUnescape_law (charSigned plus2space : Bool) :
    (∀ s e, Encodes plus2space s e → percentUnescape charSigned plus2space e = .ok s) ∧
    (∀ s, percentUnescape charSigned plus2space s = .ok (decode charSigned plus2space s) ∧
      ∃ c, loop charSigned plus2space s.length (begin s) = .ok c ∧ c.src = c.buffer.length ∧
        c.dest = (decode charSigned plus2space s).length) ∧
    ∀ s c, Reaches charSigned plus2space s c →
      c.dest ≤ c.src ∧ c.src ≤ c.buffer.length ∧
      (c.src ≠ c.buffer.length → ∃ c', round charSigned plus2space c = .ok c' ∧
        c.src < c'.src ∧ c'.src ≤ c'.buffer.length ∧ c'.dest = c.dest + 1) := by
  have hdecode : ∀ s, percentUnescape charSigned plus2space s =
      .ok (decode charSigned plus2space s) ∧
      ∃ c, loop charSigned plus2space s.length (begin s) = .ok c ∧ c.src = c.buffer.length ∧
        c.dest = (decode charSigned plus2space s).length := by
    intro s
    obtain ⟨c, hloop, h, hend, hwritten⟩ := loop_spec charSigned plus2space s.length
      (inOrder_begin s) (by simp [begin, Cursors.unread])
    have hresult : c.buffer.take c.dest = decode charSigned plus2space s := by
      simpa [begin, Cursors.written, Cursors.unread] using hwritten
    refine ⟨by simp only [percentUnescape, hloop, hresult], c, hloop, hend, ?_⟩
    rw [← hresult, List.length_take]
    have := h.dest_le
    omega
  refine ⟨?_, hdecode, ?_⟩
  · intro s e h
    rw [(hdecode e).1, decode_of_encodes charSigned h]
  · intro s c hc
    have h := inOrder_of_reaches hc
    refine ⟨h.dest_le, h.src_le, fun hne => ?_⟩
    obtain ⟨k, x, hround, hk, hlen, _⟩ := round_spec charSigned plus2space h hne
    exact ⟨_, hround, Nat.lt_add_of_pos_right hk, (h.advance x hk hlen).src_le, rfl⟩

/-- An escape of a space, a space written `+`, and a sign written with lower case digits. -/
example : percentUnescape true true (ascii "a%20b+%2b") = .ok (ascii "a b +") := by
  decide +kernel

end Gpgmepp.PercentUnescape
