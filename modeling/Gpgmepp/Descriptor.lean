import Gpgmepp.CString
import Mathlib.Data.Nat.Digits.Defs

/-!
# Writing to a file descriptor

A descriptor is given by how it answers the attempts to write that are still to
come, in order, and keeps what it has accepted.  An attempt of `k > 0` bytes takes
any number of them from `1` to `k`, or fails with a negative result.

`writeAll` is `CallbackHelper::writeAll`.  Its loop counts down what is left to
write but offers the same buffer every time: after a short write it starts over
from the first byte.  `writeAll_spec` says what that does: the descriptor gets the
buffer if and only if every later piece it took reads like the beginning of the
buffer, `ResumesAlike`.

The result of each attempt, and that of `writeAll` itself, is put into an `int`.  The
latter is the count that `writeAll` was called with only if that is less than `2 ^ 31`.

## Main definitions

* `Attempt`, `Fd`, `Fd.write` — descriptors.
* `Fd.willing` — the descriptor that takes everything it is offered.
* `writeAll` — the loop of the source.
* `ResumesAlike` — the condition under which a repeated start goes unnoticed.
* `Interrupted` — an attempt fails before everything is taken.
* `FitsInt`, `CString.Short` — what an `int` can count.
-/

namespace Gpgmepp

/-- The answer to one attempt to write `k > 0` bytes. -/
inductive Attempt
  /-- All but `left` of the bytes offered are taken, and at least one. -/
  | accepts (left : ℕ)
  /-- The result is the negative `int` `-(ret + 1)`, and `errno` is set. -/
  | fails (ret : Fin 0x80000000) (errno : ℕ)
  deriving DecidableEq

/-- How many of `k` offered bytes are taken. -/
def taken (left k : ℕ) : ℕ := max 1 (k - left)

theorem taken_pos (left k : ℕ) : 1 ≤ taken left k := le_max_left _ _

theorem taken_le {left k : ℕ} (h : 0 < k) : taken left k ≤ k := by
  simp only [taken]; omega

theorem taken_mono {left k l : ℕ} (h : k ≤ l) : taken left k ≤ taken left l := by
  simp only [taken]; omega

/-- A descriptor: its answers to the attempts to come, and what it has taken. -/
structure Fd where
  attempts : ℕ → Attempt
  accepted : List UInt8
  /-- Whether an attempt has failed. -/
  refused : Bool

namespace Fd

/-- A descriptor at the start of a callback. -/
def fresh (attempts : ℕ → Attempt) : Fd := ⟨attempts, [], false⟩

/-- The attempts of a descriptor that takes everything it is offered. -/
def willing : ℕ → Attempt := fun _ => .accepts 0

end Fd

/-- The result of a call that writes: its value, `errno` and the descriptor. -/
structure Written where
  ret : ℤ
  errno : ℕ
  fd : Fd

/-- `write(fd, buf, count)`. -/
def Fd.write (fd : Fd) (errno : ℕ) (buf : List UInt8) (count : ℕ) : Written :=
  match fd.attempts 0 with
  | .accepts left =>
      ⟨taken left count, errno,
        ⟨fun i => fd.attempts (i + 1), fd.accepted ++ buf.take (taken left count), fd.refused⟩⟩
  | .fails ret e => ⟨Int.negSucc ret, e, ⟨fun i => fd.attempts (i + 1), fd.accepted, true⟩⟩

/-- The `int` that an integer is converted to. -/
def toInt (n : ℤ) : ℤ := n.bmod (2 ^ 32)

/-- The loop of `writeAll`, from where `toWrite` bytes are left; `none` if it never ends. -/
def Fd.writeAllLoop (buf : List UInt8) (count toWrite errno : ℕ) (fd : Fd) : Option Written :=
  if 0 < toWrite then
    let w := fd.write errno buf toWrite
    let n := toInt w.ret
    if n < 0 then some { w with ret := n }
    else w.fd |>.writeAllLoop buf count (toWrite - n.toNat) w.errno
  else some ⟨toInt count, errno, fd⟩
partial_fixpoint

/-- `CallbackHelper::writeAll(fd, buf, count)`. -/
def writeAll (fd : Fd) (errno : ℕ) (buf : List UInt8) (count : ℕ) : Option Written :=
  Fd.writeAllLoop buf count count errno fd

/-! ## What an `int` can count -/

/-- The string is no longer than `writeAll` can count. -/
def CString.Short (r : CString) : Prop := r.bytes.length < 2 ^ 31

instance (r : CString) : Decidable r.Short := inferInstanceAs (Decidable (_ < _))

/-- No attempt to write up to `k` bytes takes more of them than an `int` can count. -/
def FitsInt (k : ℕ) (attempts : ℕ → Attempt) : Prop :=
  ∀ i left, attempts i = .accepts left → taken left k < 2 ^ 31

/-- A number is written with ten digits at most. -/
theorem CString.short_decimal (n : UInt32) : (CString.decimal n).Short := by
  have hlen : (Nat.toDigits 10 n.toNat).length ≤ 10 :=
    Nat.toDigits_length 10 n.toNat 10 (by decide) (by have := n.toNat_lt; omega)
  rw [CString.Short, CString.bytes_decimal, CString.numeral, List.length_map]
  omega

theorem toInt_of_lt {n : ℕ} (h : n < 2 ^ 31) : toInt n = n := by
  rw [toInt, Int.bmod_eq_of_le] <;> omega

theorem toInt_negSucc (ret : Fin 0x80000000) : toInt (Int.negSucc ret) = Int.negSucc ret := by
  have hret := ret.isLt
  rw [toInt, Int.bmod_eq_of_le] <;> omega

theorem toInt_lt (n : ℤ) : toInt n < 2 ^ 31 := by
  have h := Int.bmod_lt (x := n) (m := 2 ^ 32) (by decide)
  simp only [toInt]
  omega

/-- A count is returned as it is exactly if it is in the range. -/
theorem toInt_eq_iff {n : ℕ} : toInt n = n ↔ n < 2 ^ 31 := by
  refine ⟨fun h => ?_, toInt_of_lt⟩
  have hlt := toInt_lt n
  omega

/-- Where less is offered, no less fits. -/
theorem FitsInt.mono {k l : ℕ} {attempts : ℕ → Attempt} (h : FitsInt l attempts) (hk : k ≤ l) :
    FitsInt k attempts :=
  fun i left hi => Nat.lt_of_le_of_lt (taken_mono hk) (h i left hi)

theorem FitsInt.tail {k : ℕ} {attempts : ℕ → Attempt} (h : FitsInt k attempts) :
    FitsInt k fun i => attempts (i + 1) :=
  fun i => h (i + 1)

/-- A short buffer is never too much. -/
theorem fitsInt_of_lt {k : ℕ} (h : k < 2 ^ 31) (attempts : ℕ → Attempt) :
    FitsInt k attempts := by
  intro i left _
  simp only [taken]
  omega

/-! ## What the descriptor gets -/

/-- From offset `s` of the reply on, every piece that the attempts take reads like the
beginning of the reply, up to the first attempt that fails. -/
inductive ResumesAlike (r : List UInt8) : ℕ → (ℕ → Attempt) → Prop
  | done {s : ℕ} {attempts : ℕ → Attempt} (h : r.length ≤ s) : ResumesAlike r s attempts
  | failed {s : ℕ} {attempts : ℕ → Attempt} {ret : Fin 0x80000000} {errno : ℕ}
      (h : attempts 0 = .fails ret errno) : ResumesAlike r s attempts
  | taken {s : ℕ} {attempts : ℕ → Attempt} {left : ℕ} (hs : s < r.length)
      (h : attempts 0 = .accepts left)
      (halike : (r.drop s).take (taken left (r.length - s)) =
        r.take (taken left (r.length - s)))
      (hrest : ResumesAlike r (s + taken left (r.length - s)) fun i => attempts (i + 1)) :
      ResumesAlike r s attempts

/-- An attempt fails before `k` bytes are taken. -/
inductive Interrupted : ℕ → (ℕ → Attempt) → Prop
  | failed {k : ℕ} {attempts : ℕ → Attempt} {ret : Fin 0x80000000} {errno : ℕ} (hk : 0 < k)
      (h : attempts 0 = .fails ret errno) : Interrupted k attempts
  | taken {k left : ℕ} {attempts : ℕ → Attempt} (hk : 0 < k) (h : attempts 0 = .accepts left)
      (hrest : Interrupted (k - taken left k) fun i => attempts (i + 1)) : Interrupted k attempts

/-- The condition when the next attempt takes a piece. -/
theorem resumesAlike_iff_of_accepts {r : List UInt8} {s left : ℕ} {attempts : ℕ → Attempt}
    (hs : s < r.length) (h : attempts 0 = .accepts left) :
    ResumesAlike r s attempts ↔
      (r.drop s).take (taken left (r.length - s)) = r.take (taken left (r.length - s)) ∧
        ResumesAlike r (s + taken left (r.length - s)) fun i => attempts (i + 1) := by
  constructor
  · intro hr
    cases hr with
    | done h' => omega
    | failed h' => rw [h] at h'; cases h'
    | taken _ h' halike hrest =>
        obtain rfl : left = _ := Attempt.accepts.inj (h.symm.trans h')
        exact ⟨halike, hrest⟩
  · rintro ⟨halike, hrest⟩
    exact .taken hs h halike hrest

theorem not_interrupted_zero (attempts : ℕ → Attempt) : ¬ Interrupted 0 attempts := by
  intro h
  cases h with
  | failed hk | taken hk => exact absurd hk (lt_irrefl 0)

theorem interrupted_iff_of_accepts {k left : ℕ} {attempts : ℕ → Attempt} (hk : 0 < k)
    (h : attempts 0 = .accepts left) :
    Interrupted k attempts ↔ Interrupted (k - taken left k) fun i => attempts (i + 1) := by
  constructor
  · intro hi
    cases hi with
    | failed _ h' => rw [h] at h'; cases h'
    | taken _ h' hrest =>
        obtain rfl : left = _ := Attempt.accepts.inj (h.symm.trans h')
        exact hrest
  · exact .taken hk h

/-- A piece and what follows begin a list exactly when the piece is its beginning and
the rest begins what is left. -/
private theorem append_prefix_iff {x y l : List UInt8} :
    x ++ y <+: l ↔ l.take x.length = x ∧ y <+: l.drop x.length := by
  constructor
  · intro hp
    have hx : l.take x.length = x :=
      (List.prefix_iff_eq_take.mp ((List.prefix_append x y).trans hp)).symm
    refine ⟨hx, ?_⟩
    rw [← List.take_append_drop x.length l, hx] at hp
    exact (List.prefix_append_right_inj x).mp hp
  · rintro ⟨hx, hy⟩
    rw [← List.take_append_drop x.length l, hx]
    exact (List.prefix_append_right_inj x).mpr hy

section Rounds
variable {buf : List UInt8} {count n left errno : ℕ} {fd : Fd}

/-- A round in which the attempt fails is the last one. -/
theorem writeAllLoop_failed {ret : Fin 0x80000000} {e : ℕ} (hpos : 0 < n)
    (hatt : fd.attempts 0 = .fails ret e) :
    Fd.writeAllLoop buf count n errno fd =
      some ⟨Int.negSucc ret, e, ⟨fun i => fd.attempts (i + 1), fd.accepted, true⟩⟩ := by
  rw [Fd.writeAllLoop]
  have hneg : toInt (Int.negSucc ret) < 0 := by
    rw [toInt_negSucc]
    exact Int.negSucc_lt_zero _
  simp only [Fd.write, hatt, if_pos hpos]
  rw [if_pos hneg, toInt_negSucc]

/-- A round in which some bytes are taken: they are the first ones, not the next ones. -/
theorem writeAllLoop_taken (hpos : 0 < n) (hatt : fd.attempts 0 = .accepts left)
    (hint : taken left n < 2 ^ 31) :
    Fd.writeAllLoop buf count n errno fd =
      Fd.writeAllLoop buf count (n - taken left n) errno
        ⟨fun i => fd.attempts (i + 1), fd.accepted ++ buf.take (taken left n), fd.refused⟩ := by
  have hneg : ¬ ((taken left n : ℤ) < 0) := by omega
  rw [Fd.writeAllLoop]
  simp [Fd.write, hatt, hpos, toInt_of_lt hint, hneg]

theorem writeAllLoop_done :
    Fd.writeAllLoop buf count 0 errno fd = some ⟨toInt count, errno, fd⟩ := by
  rw [Fd.writeAllLoop]
  simp

end Rounds

/-- What the loop comes to at offset `s`: it hands over some bytes `x` of the buffer, no more than
are missing.  Unless it is interrupted they are as many as are missing, and the result is the count
as an `int`; otherwise the result is negative.  They are the missing bytes, as far as they go,
exactly under `ResumesAlike`. -/
def HandsOver (r : List UInt8) (s errno : ℕ) (fd : Fd) : Prop :=
  ∃ x w, Fd.writeAllLoop r r.length (r.length - s) errno fd = some w ∧
    w.fd.accepted = fd.accepted ++ x ∧ x ⊆ r ∧ (x <+: r.drop s ↔ ResumesAlike r s fd.attempts) ∧
    ((¬ Interrupted (r.length - s) fd.attempts ∧ x.length = r.length - s ∧
        w.ret = toInt r.length ∧ w.fd.refused = fd.refused) ∨
      (Interrupted (r.length - s) fd.attempts ∧ x.length ≤ r.length - s ∧ w.ret < 0 ∧
        w.fd.refused = true))

/-- At the end nothing is missing. -/
theorem handsOver_of_le {r : List UInt8} {s : ℕ} (h : r.length ≤ s) (errno : ℕ) (fd : Fd) :
    HandsOver r s errno fd := by
  have hzero : r.length - s = 0 := by omega
  have hdone : Fd.writeAllLoop r r.length (r.length - s) errno fd =
      some ⟨toInt r.length, errno, fd⟩ := by
    rw [hzero, writeAllLoop_done]
  refine ⟨[], _, hdone, by simp, by simp, ?_, .inl ⟨?_, ?_, by simp only, by simp only⟩⟩
  · exact ⟨fun _ => .done h, fun _ => List.nil_prefix⟩
  · rw [hzero]
    exact not_interrupted_zero _
  · rw [hzero, List.length_nil]

/-- An attempt that takes a piece leaves the rest to the others. -/
theorem handsOver_of_taken {r : List UInt8} {s errno left : ℕ} {fd : Fd} (hlt : s < r.length)
    (hatt : fd.attempts 0 = .accepts left) (hint : taken left (r.length - s) < 2 ^ 31)
    (ih : HandsOver r (s + taken left (r.length - s)) errno
      ⟨fun i => fd.attempts (i + 1), fd.accepted ++ r.take (taken left (r.length - s)),
        fd.refused⟩) : HandsOver r s errno fd := by
  have hpos : 0 < r.length - s := by omega
  have hround : Fd.writeAllLoop r r.length (r.length - s) errno fd =
      Fd.writeAllLoop r r.length (r.length - s - taken left (r.length - s)) errno
        ⟨fun i => fd.attempts (i + 1), fd.accepted ++ r.take (taken left (r.length - s)),
          fd.refused⟩ := writeAllLoop_taken hpos hatt hint
  have halike_iff := resumesAlike_iff_of_accepts hlt hatt
  have hinterrupted := interrupted_iff_of_accepts hpos hatt
  have hnk : taken left (r.length - s) ≤ r.length - s := taken_le hpos
  generalize taken left (r.length - s) = n at hnk hround halike_iff hinterrupted ih
  obtain ⟨x, w, hw, hacc, hsub, halike, hend⟩ := ih
  have hrest : r.length - (s + n) = r.length - s - n := by omega
  rw [hrest] at hw hend
  have hlen : (r.take n).length = n := by simp; omega
  refine ⟨r.take n ++ x, w, hround.trans hw, by rw [hacc]; simp, ?_, ?_, ?_⟩
  · exact List.append_subset.mpr ⟨List.take_subset n r, hsub⟩
  · rw [append_prefix_iff, hlen, List.drop_drop, halike, halike_iff]
  · rw [hinterrupted, List.length_append, hlen]
    rcases hend with ⟨hno, hx, hret, href⟩ | ⟨hyes, hx, hret, href⟩
    · exact .inl ⟨hno, by omega, hret, href⟩
    · exact .inr ⟨hyes, by omega, hret, href⟩

/-- **What the loop of `writeAll` does**, on a descriptor whose results fit an `int`. -/
theorem writeAllLoop_spec (r : List UInt8) :
    ∀ (k s errno : ℕ) (fd : Fd), r.length - s = k → FitsInt r.length fd.attempts →
      HandsOver r s errno fd := by
  intro k
  induction k using Nat.strong_induction_on with
  | _ k ih =>
      intro s errno fd hk hint
      by_cases hlt : s < r.length
      · have hpos : 0 < r.length - s := by omega
        cases hatt : fd.attempts 0 with
        | fails ret e =>
            refine ⟨[], _, writeAllLoop_failed hpos hatt, by simp, by simp, ?_,
              .inr ⟨.failed hpos hatt, by simp, Int.negSucc_lt_zero _, rfl⟩⟩
            exact ⟨fun _ => .failed hatt, fun _ => List.nil_prefix⟩
        | accepts left =>
            have hpiece : taken left (r.length - s) < 2 ^ 31 :=
              hint.mono (by omega) 0 left hatt
            have hn1 := taken_pos left (r.length - s)
            exact handsOver_of_taken hlt hatt hpiece
              (ih (r.length - (s + taken left (r.length - s))) (by omega) _ _ _ rfl hint.tail)
      · exact handsOver_of_le (by omega) errno fd

/-- `writeAll` of a whole buffer, at any schedule of attempts. -/
theorem writeAll_spec (fd : Fd) (errno : ℕ) (r : List UInt8) (h : FitsInt r.length fd.attempts) :
    ∃ x w, writeAll fd errno r r.length = some w ∧ w.fd.accepted = fd.accepted ++ x ∧ x ⊆ r ∧
      (x <+: r ↔ ResumesAlike r 0 fd.attempts) ∧
      ((¬ Interrupted r.length fd.attempts ∧ x.length = r.length ∧ w.ret = toInt r.length ∧
          w.fd.refused = fd.refused) ∨
        (Interrupted r.length fd.attempts ∧ x.length ≤ r.length ∧ w.ret < 0 ∧
          w.fd.refused = true)) := by
  simpa [writeAll, HandsOver] using writeAllLoop_spec r r.length 0 errno fd rfl h

/-- A willing descriptor gets a whole short buffer in one attempt. -/
theorem writeAll_willing (acc : List UInt8) (refused : Bool) (errno : ℕ) {r : List UInt8}
    (h : r.length < 2 ^ 31) :
    writeAll ⟨Fd.willing, acc, refused⟩ errno r r.length =
      some ⟨r.length, errno, ⟨Fd.willing, acc ++ r, refused⟩⟩ := by
  by_cases hpos : 0 < r.length
  · have hall : taken 0 r.length = r.length := by simp only [taken]; omega
    have hfirst : (⟨Fd.willing, acc, refused⟩ : Fd).attempts 0 = .accepts 0 := rfl
    rw [writeAll, writeAllLoop_taken hpos hfirst (by rw [hall]; exact h), hall, Nat.sub_self,
      writeAllLoop_done, toInt_of_lt h, List.take_length]
    rfl
  · obtain rfl : r = [] := List.eq_nil_of_length_eq_zero (by omega)
    simp [writeAll, writeAllLoop_done, toInt]

/-- A descriptor that takes a byte at a time gets the first one again and again. -/
theorem writeAllLoop_byteByByte (b : UInt8) (r : List UInt8) (count left errno : ℕ)
    (refused : Bool) :
    ∀ (n : ℕ) (acc : List UInt8), n ≤ left + 1 →
      Fd.writeAllLoop (b :: r) count n errno ⟨fun _ => .accepts left, acc, refused⟩ =
        some ⟨toInt count, errno,
          ⟨fun _ => .accepts left, acc ++ List.replicate n b, refused⟩⟩ := by
  intro n
  induction n with
  | zero =>
      intro acc _
      rw [writeAllLoop_done, List.replicate_zero, List.append_nil]
  | succ n ih =>
      intro acc hn
      have hone : taken left (n + 1) = 1 := by simp only [taken]; omega
      have hatt : (⟨fun _ => .accepts left, acc, refused⟩ : Fd).attempts 0 = .accepts left := rfl
      have hrest := ih (acc ++ [b]) (by omega)
      rw [List.append_assoc, List.singleton_append, ← List.replicate_succ] at hrest
      rw [writeAllLoop_taken (Nat.succ_pos n) hatt (by rw [hone]; decide), hone]
      exact hrest

/-- A single byte is taken, or the attempt fails. -/
theorem writeAll_byte (fd : Fd) (errno : ℕ) (b : UInt8) :
    ∃ w, writeAll fd errno [b] 1 = some w ∧
      ((w.fd.accepted = fd.accepted ++ [b] ∧ w.ret = 1 ∧ w.fd.refused = fd.refused) ∨
        (w.fd.accepted = fd.accepted ∧ w.ret < 0 ∧ w.fd.refused = true)) := by
  cases hatt : fd.attempts 0 with
  | accepts left =>
      have hone : taken left 1 = 1 := by simp only [taken]; omega
      refine ⟨⟨1, errno, ⟨fun i => fd.attempts (i + 1), fd.accepted ++ [b], fd.refused⟩⟩, ?_,
        .inl ⟨rfl, rfl, rfl⟩⟩
      rw [writeAll, writeAllLoop_taken Nat.one_pos hatt (by rw [hone]; decide), hone,
        Nat.sub_self, writeAllLoop_done]
      rfl
  | fails ret e =>
      exact ⟨_, writeAllLoop_failed Nat.one_pos hatt, .inr ⟨rfl, Int.negSucc_lt_zero _, rfl⟩⟩

/-- Whatever the attempts, the result is an `int`. -/
theorem ret_writeAllLoop_lt {buf : List UInt8} {count n errno : ℕ} {fd : Fd} {w : Written}
    (h : Fd.writeAllLoop buf count n errno fd = some w) : w.ret < 2 ^ 31 := by
  refine Fd.writeAllLoop.partial_correctness buf count (fun _ _ _ w => w.ret < 2 ^ 31) ?_ n errno fd
    w h
  intro loop ih toWrite errno fd w hw
  have hint {m : ℤ} {v : Written} (hm : m < 2 ^ 31) (hw : some { v with ret := m } = some w) :
      w.ret < 2 ^ 31 := by
    rwa [← Option.some.inj hw]
  simp only at hw
  split_ifs at hw
  · exact hint (toInt_lt _) hw
  · exact ih _ _ _ _ hw
  · exact hint (v := ⟨count, errno, fd⟩) (toInt_lt count) hw

end Gpgmepp
