import Gpgmepp.DataProvider.QByteArray
import Gpgmepp.Lib.Run

/-!
# Reading and seeking in a `QByteArrayDataProvider`

Offsets and the position are of type `off_t`, 64 bits wide, but `seek` computes the new
position in an `int`.  Nor does it reject a negative one.  It does what it should exactly
when the place asked for, computed without bounds, is one that a non-negative `int` can
hold: `obeysSeek_iff`.

A negative position is what `read` and `write` then copy from and to.  Positions stay
non-negative in a run if all its seeks are of the kind above, and then no call goes before
the start of the array: `seekLaw_iff`.

## Main definitions

* `read`, `seek` — the functions of the source.
* `unread`, `read_eq` — what is left to be read, and one read.
* `Access`, `accesses` — the memory that a call copies from and to; a call goes out of bounds
  exactly when one of them does: `step_eq_outOfBounds_iff`.
* `step` — a provider at work, as a machine.
* `ObeysSeek`, `Seekable` — what a seek should do, and when it does.
-/

namespace Gpgmepp

open StateMachine

/-- What ends a call: undefined arithmetic, or one of the faults of `write`. -/
inductive Trap | signedOverflow | fault (f : Fault)
  deriving DecidableEq

/-- An `off_t` computed from others; there is no such value outside of its range. -/
def offT (x : ℤ) : Except Trap Int64 :=
  if -2 ^ 63 ≤ x ∧ x < 2 ^ 63 then .ok (Int64.ofInt x) else .error .signedOverflow

theorem offT_of_range {x : ℤ} (hlo : -2 ^ 63 ≤ x) (hhi : x < 2 ^ 63) :
    offT x = .ok (Int64.ofInt x) ∧ (Int64.ofInt x).toInt = x :=
  ⟨if_pos ⟨hlo, hhi⟩, Int64.toInt_ofInt_of_le hlo hhi⟩

theorem toInt_of_offT {x : ℤ} {n : Int64} (h : offT x = .ok n) : n.toInt = x := by
  simp only [offT] at h
  split at h
  · next hx =>
      obtain rfl := Except.ok.inj h
      exact Int64.toInt_ofInt_of_le hx.1 hx.2
  · cases h

theorem eq_signedOverflow_of_offT {x : ℤ} {f : Trap} (h : offT x = .error f) :
    f = .signedOverflow := by
  simp only [offT] at h
  split at h
  · cases h
  · exact (Except.error.inj h).symm

/-- `memcpy(buffer, ba.data() + off, count)`: the bytes copied. -/
def QByteArray.load (ba : QByteArray) (off : ℤ) (count : UInt64) : Except Fault (List UInt8) :=
  if 0 ≤ off ∧ off + count.toNat ≤ ba.size then
    .ok ((ba.bytes.drop off.toNat).take count.toNat)
  else .error .outOfBounds

/-! ## Accesses to memory -/

/-- An access to `count` bytes from `data() + offset`, the array then being of the size
given. -/
structure Access where
  offset : ℤ
  count : ℕ
  size : ℕ

def Access.InBounds (a : Access) : Prop := 0 ≤ a.offset ∧ a.offset + a.count ≤ a.size

namespace QByteArray

theorem memset_eq_error_iff (ba : QByteArray) (off : ℤ) (value : UInt8) (count : UInt64)
    (f : Fault) : ba.memset off value count = .error f ↔
      f = .outOfBounds ∧ ¬ Access.InBounds ⟨off, count.toNat, ba.size⟩ := by
  by_cases h : Access.InBounds ⟨off, count.toNat, ba.size⟩
  · simp only [memset, dif_pos (show 0 ≤ off ∧ off + count.toNat ≤ ba.size from h), h, not_true,
      and_false, reduceCtorEq]
  · simp only [memset, dif_neg (show ¬ (0 ≤ off ∧ off + count.toNat ≤ ba.size) from h), h,
      not_false_eq_true, and_true, Except.error.injEq, eq_comm]

theorem memcpy_eq_error_iff (ba : QByteArray) (off : ℤ) {src : List UInt8} {count : UInt64}
    (hsrc : count.toNat ≤ src.length) (f : Fault) : ba.memcpy off src count = .error f ↔
      f = .outOfBounds ∧ ¬ Access.InBounds ⟨off, count.toNat, ba.size⟩ := by
  by_cases h : Access.InBounds ⟨off, count.toNat, ba.size⟩
  · have hboth : (0 ≤ off ∧ off + count.toNat ≤ ba.size) ∧ count.toNat ≤ src.length := ⟨h, hsrc⟩
    simp only [memcpy, dif_pos hboth, h, not_true, and_false, reduceCtorEq]
  · have hboth : ¬ ((0 ≤ off ∧ off + count.toNat ≤ ba.size) ∧ count.toNat ≤ src.length) :=
      fun hb => h hb.1
    simp only [memcpy, dif_neg hboth, h, not_false_eq_true, and_true, Except.error.injEq, eq_comm]

theorem load_eq_error_iff (ba : QByteArray) (off : ℤ) (count : UInt64) (f : Fault) :
    ba.load off count = .error f ↔
      f = .outOfBounds ∧ ¬ Access.InBounds ⟨off, count.toNat, ba.size⟩ := by
  by_cases h : Access.InBounds ⟨off, count.toNat, ba.size⟩
  · simp only [load, if_pos (show 0 ≤ off ∧ off + count.toNat ≤ ba.size from h), h, not_true,
      and_false, reduceCtorEq]
  · simp only [load, if_neg (show ¬ (0 ≤ off ∧ off + count.toNat ≤ ba.size) from h), h,
      not_false_eq_true, and_true, Except.error.injEq, eq_comm]

end QByteArray

/-- The argument `whence` of `seek`. -/
inductive Whence | seekSet | seekCur | seekEnd | other (n : ℕ)
  deriving DecidableEq, Repr

namespace QByteArrayDataProvider

section Calls
variable [LibGpgError]

/-- `QByteArrayDataProvider::read(buffer, bufSize)`, with the bytes that the buffer gets.
The first argument says whether there is a buffer. -/
def read (p : QByteArrayDataProvider) (buffer : Bool) (bufSize : UInt64) :
    Except Trap ((IoResult × List UInt8) × QByteArrayDataProvider) :=
  if bufSize = 0 then .ok ((⟨0, 0⟩, []), p)
  else if buffer = false then .ok ((⟨-1, Error.setSystemError .einval⟩, []), p)
  else if Int64.ofNat p.mArray.size ≤ p.mOff then .ok ((⟨0, 0⟩, []), p)
  else
    match offT (p.mArray.size - p.mOff.toInt) with
    | .error f => .error f
    | .ok rest =>
        let amount := min bufSize rest.toUInt64
        if 0 < amount then
          match p.mArray.load p.mOff.toInt amount with
          | .error f => .error (.fault f)
          | .ok bytes =>
              .ok ((⟨amount.toInt64, 0⟩, bytes),
                { p with mOff := (p.mOff.toUInt64 + amount).toInt64 })
        else .error (.fault .assertionFailed)

/-- The end of `seek`: `return mOff = newOffset`. -/
def moveTo (p : QByteArrayDataProvider) (newOffset : Int32) : IoResult × QByteArrayDataProvider :=
  (⟨newOffset.toInt64, 0⟩, { p with mOff := newOffset.toInt64 })

/-- `QByteArrayDataProvider::seek(offset, whence)`.  The sums are of type `off_t`; what is
kept of them is an `int`. -/
def seek (p : QByteArrayDataProvider) (offset : Int64) (whence : Whence) :
    Except Trap (IoResult × QByteArrayDataProvider) :=
  let newOffset : Int32 := p.mOff.toInt32
  match whence with
  | .seekSet => .ok (p.moveTo offset.toInt32)
  | .seekCur =>
      match offT (newOffset.toInt + offset.toInt) with
      | .error f => .error f
      | .ok sum => .ok (p.moveTo sum.toInt32)
  | .seekEnd =>
      match offT (p.mArray.size + offset.toInt) with
      | .error f => .error f
      | .ok sum => .ok (p.moveTo sum.toInt32)
  | .other _ => .ok (⟨-1, Error.setSystemError .einval⟩, p)

/-- A call of a provider.  A write brings what the memory holds that `resize` adds. -/
inductive Op
  | read (buffer : Bool) (bufSize : UInt64)
  | write (memory : ℕ → UInt8) (buffer : Option (List UInt8)) (bufSize : UInt64)
  | seek (offset : Int64) (whence : Whence)

/-- A provider at work. -/
def step (p : QByteArrayDataProvider) :
    Op → Except Trap ((IoResult × List UInt8) × QByteArrayDataProvider)
  | .read buffer bufSize => p.read buffer bufSize
  | .write memory buffer bufSize =>
      match p.write memory buffer bufSize with
      | .error f => .error (.fault f)
      | .ok (r, p) => .ok ((r, []), p)
  | .seek offset whence =>
      match p.seek offset whence with
      | .error f => .error f
      | .ok (r, p) => .ok ((r, []), p)

end Calls

/-- The access of `store`. -/
def storeAccesses (p : QByteArrayDataProvider) (bufSize : UInt64) : List Access :=
  if Int64.ofNat p.mArray.size ≤ p.mOff then []
  else if bufSize ≤ UInt64.ofNat p.mArray.size - p.mOff.toUInt64 then
    [⟨p.mOff.toInt, bufSize.toNat, p.mArray.size⟩]
  else []

/-- The access of `resizeAndInit`. -/
def initAccesses (ba : QByteArray) (memory : ℕ → UInt8) (newSize : UInt64) : List Access :=
  let oldSize := UInt64.ofNat ba.size
  let grown := ba.resize memory newSize.toInt64.toInt32
  if newSize == UInt64.ofNat grown.size then
    [⟨oldSize.toNat, (newSize - oldSize).toNat, grown.size⟩]
  else []

/-- The accesses of a call to the memory of the array, in their order. -/
def accesses (p : QByteArrayDataProvider) : Op → List Access
  | .read buffer bufSize =>
      if bufSize = 0 ∨ buffer = false ∨ Int64.ofNat p.mArray.size ≤ p.mOff then []
      else
        match offT (p.mArray.size - p.mOff.toInt) with
        | .error _ => []
        | .ok rest =>
            let amount := min bufSize rest.toUInt64
            if 0 < amount then [⟨p.mOff.toInt, amount.toNat, p.mArray.size⟩] else []
  | .write memory buffer bufSize =>
      if bufSize = 0 ∨ buffer = none then []
      else if Int64.ofNat p.mArray.size ≤ p.mOff then
        let newSize := p.mOff.toUInt64 + bufSize
        initAccesses p.mArray memory newSize ++
          match resizeAndInit p.mArray memory newSize with
          | .error _ => []
          | .ok (mArray, _) => storeAccesses { p with mArray } bufSize
      else storeAccesses p bufSize
  | .seek _ _ => []

/-- `resizeAndInit` goes out of bounds exactly with its access. -/
theorem resizeAndInit_eq_error_iff (ba : QByteArray) (memory : ℕ → UInt8) (n : UInt64)
    (f : Fault) : resizeAndInit ba memory n = .error f ↔
      f = .outOfBounds ∧ ∃ a ∈ initAccesses ba memory n, ¬ a.InBounds := by
  simp only [resizeAndInit, initAccesses]
  split
  · have hset := QByteArray.memset_eq_error_iff (ba.resize memory n.toInt64.toInt32)
      (UInt64.ofNat ba.size).toNat 0 (n - UInt64.ofNat ba.size) f
    simp only [List.mem_singleton, exists_eq_left]
    rw [← hset]
    cases (ba.resize memory n.toInt64.toInt32).memset (UInt64.ofNat ba.size).toNat 0
      (n - UInt64.ofNat ba.size) <;> simp only [Except.error.injEq, reduceCtorEq]
  · simp

section Faults
variable [LibGpgError]

/-- `store` goes out of bounds exactly with its access. -/
theorem store_eq_outOfBounds_iff (p : QByteArrayDataProvider) {buffer : List UInt8}
    {bufSize : UInt64} (h : bufSize.toNat ≤ buffer.length) :
    p.store buffer bufSize = .error .outOfBounds ↔
      ∃ a ∈ storeAccesses p bufSize, ¬ a.InBounds := by
  simp only [store, storeAccesses]
  split
  · simp
  · split
    · have hcpy := QByteArray.memcpy_eq_error_iff p.mArray p.mOff.toInt h .outOfBounds
      rw [and_iff_right rfl] at hcpy
      simp only [List.mem_singleton, exists_eq_left, ← hcpy]
      cases p.mArray.memcpy p.mOff.toInt buffer bufSize <;> simp
    · simp

theorem read_eq_outOfBounds_iff (p : QByteArrayDataProvider) (buffer : Bool) (bufSize : UInt64) :
    p.read buffer bufSize = .error (.fault .outOfBounds) ↔
      ∃ a ∈ accesses p (.read buffer bufSize), ¬ a.InBounds := by
  by_cases h0 : bufSize = 0
  · simp [read, accesses, h0]
  rcases buffer with _ | _
  · simp [read, accesses, h0]
  by_cases heof : Int64.ofNat p.mArray.size ≤ p.mOff
  · simp [read, accesses, h0, heof]
  simp only [read, accesses, h0, heof, Bool.true_eq_false, or_self, if_false]
  cases hrest : offT (p.mArray.size - p.mOff.toInt) with
  | error f =>
      obtain rfl := eq_signedOverflow_of_offT hrest
      simp
  | ok rest =>
      by_cases hpos : 0 < min bufSize rest.toUInt64
      · have hload : p.mArray.load p.mOff.toInt (min bufSize rest.toUInt64) = .error .outOfBounds ↔
            ∃ a ∈ [Access.mk p.mOff.toInt (min bufSize rest.toUInt64).toNat p.mArray.size],
              ¬ a.InBounds := by
          simp only [QByteArray.load_eq_error_iff, List.mem_singleton, exists_eq_left, true_and]
        simp only [hpos, if_true]
        rw [← hload]
        cases p.mArray.load p.mOff.toInt (min bufSize rest.toUInt64) <;> simp
      · simp [hpos]

theorem write_eq_outOfBounds_iff (p : QByteArrayDataProvider) (memory : ℕ → UInt8)
    {buffer : List UInt8} {bufSize : UInt64} (h : bufSize.toNat ≤ buffer.length) :
    p.write memory (some buffer) bufSize = .error .outOfBounds ↔
      ∃ a ∈ accesses p (.write memory (some buffer) bufSize), ¬ a.InBounds := by
  simp only [write, accesses, reduceCtorEq, or_false]
  split
  · simp
  split
  · simp only [List.mem_append, or_and_right, exists_or]
    have hinit := resizeAndInit_eq_error_iff p.mArray memory (p.mOff.toUInt64 + bufSize)
    rcases hroom : resizeAndInit p.mArray memory (p.mOff.toUInt64 + bufSize) with f | ⟨ba, ok⟩
    · obtain ⟨rfl, hbad⟩ := (hinit f).mp hroom
      simp [hbad]
    · have hgood := (hinit .outOfBounds).not.mp (by simp [hroom])
      simp only [true_and] at hgood
      simp only [hgood, false_or]
      exact store_eq_outOfBounds_iff _ h
  · exact store_eq_outOfBounds_iff p h

/-- **The accesses are those of the functions.**  A call with a buffer of the size that is
stated goes out of bounds exactly when one of its accesses does. -/
theorem step_eq_outOfBounds_iff (p : QByteArrayDataProvider) (op : Op)
    (h : ∀ memory buffer bufSize, op = .write memory (some buffer) bufSize →
      bufSize.toNat ≤ buffer.length) :
    step p op = .error (.fault .outOfBounds) ↔ ∃ a ∈ accesses p op, ¬ a.InBounds := by
  cases op with
  | read buffer bufSize => exact p.read_eq_outOfBounds_iff buffer bufSize
  | write memory buffer bufSize =>
      cases buffer with
      | none =>
          by_cases h0 : bufSize = 0 <;> simp [step, write, accesses, h0]
      | some buffer =>
          rw [← p.write_eq_outOfBounds_iff memory (h _ _ _ rfl)]
          simp only [step]
          cases p.write memory (some buffer) bufSize <;> simp
  | seek offset whence =>
      have hno : p.seek offset whence ≠ .error (.fault .outOfBounds) := by
        cases whence with
        | seekCur =>
            simp only [seek]
            split
            · next f hf =>
                obtain rfl := eq_signedOverflow_of_offT hf
                simp
            · simp
        | seekEnd =>
            simp only [seek]
            split
            · next f hf =>
                obtain rfl := eq_signedOverflow_of_offT hf
                simp
            · simp
        | _ => simp [seek]
      simp only [step, accesses]
      cases hs : p.seek offset whence with
      | error f =>
          rw [hs] at hno
          simpa using hno
      | ok r => simp

end Faults

/-! ## Seeks -/

/-- The place that an offset counts from, for the three kinds of seeks. -/
def base (p : QByteArrayDataProvider) : Whence → Option ℤ
  | .seekSet => some 0
  | .seekCur => some p.mOff.toInt
  | .seekEnd => some p.mArray.size
  | .other _ => none

/-- The place asked for is one that a non-negative `int` can hold; there is none when
`whence` is not one of the three kinds. -/
def Seekable (p : QByteArrayDataProvider) (offset : Int64) (whence : Whence) : Prop :=
  ∀ b, p.base whence = some b → 0 ≤ b + offset.toInt ∧ b + offset.toInt < 2 ^ 31

section Seek
variable [LibGpgError]

/-- What a seek should do: it returns the exact place asked for, which is not negative and
the new position, or it returns `-1` and nothing changes. -/
def ObeysSeek (p : QByteArrayDataProvider) (offset : Int64) (whence : Whence) : Prop :=
  ∃ r p', p.seek offset whence = .ok (r, p') ∧
    ((∃ b, p.base whence = some b ∧ 0 ≤ b + offset.toInt ∧
        r.ret.toInt = b + offset.toInt ∧ p'.mOff.toInt = b + offset.toInt ∧
        p'.mArray = p.mArray) ∨
      (r.ret = -1 ∧ p' = p))

omit [LibGpgError] in
/-- Moving to what is left in an `int` of the place `x` obeys the law exactly if `x` is the
value of a non-negative `int`. -/
theorem moveTo_obeys_iff (p : QByteArrayDataProvider) (h0 : 0 ≤ p.mOff.toInt) {n : Int32} {x : ℤ}
    (hn : n.toInt = x.bmod (2 ^ 32)) :
    ((0 ≤ x ∧ (p.moveTo n).1.ret.toInt = x ∧ (p.moveTo n).2.mOff.toInt = x) ∨
      ((p.moveTo n).1.ret = -1 ∧ (p.moveTo n).2 = p)) ↔ 0 ≤ x ∧ x < 2 ^ 31 := by
  simp only [moveTo, Int32.toInt_toInt64]
  constructor
  · rintro (⟨hx, hret, _⟩ | ⟨hret, hp⟩)
    · exact ⟨hx, hret ▸ n.toInt_lt⟩
    · -- the position would be `-1`
      have hneg : p.mOff = -1 := by rw [← hret, ← hp]
      rw [hneg] at h0
      exact absurd h0 (by decide)
  · rintro ⟨hlo, hhi⟩
    have hx : n.toInt = x := hn.trans (Int.bmod_eq_of_le (by omega) (by omega))
    exact .inl ⟨hlo, hx, hx⟩

omit [LibGpgError] in
/-- What an `int` keeps of a position, added to an offset, is in the range of `off_t` when
the exact sum is the value of a non-negative `int`. -/
theorem range_of_seekCur {m o : ℤ} (hm : 0 ≤ m) (hm' : m < 2 ^ 63) (hlo : 0 ≤ m + o)
    (hhi : m + o < 2 ^ 31) :
    -2 ^ 63 ≤ m.bmod (2 ^ 32) + o ∧ m.bmod (2 ^ 32) + o < 2 ^ 63 := by
  obtain ⟨k, hk⟩ : (2 ^ 32 : ℤ) ∣ m.bmod (2 ^ 32) - m := Int.dvd_bmod_sub_self
  have hb := Int.bmod_lt (x := m) (m := 2 ^ 32) (by decide)
  have hb' := Int.le_bmod (x := m) (m := 2 ^ 32) (by decide)
  omega

/-- A seek that keeps an `int` of the sum `y`, which stands for the place `b + offset`. -/
theorem obeysSeek_iff_of_base {p : QByteArrayDataProvider} (h0 : 0 ≤ p.mOff.toInt)
    {offset : Int64} {whence : Whence} {b y : ℤ} (hbase : p.base whence = some b)
    (hseek : p.seek offset whence =
      match offT y with
      | .error f => .error f
      | .ok sum => .ok (p.moveTo sum.toInt32))
    (hy : y.bmod (2 ^ 32) = (b + offset.toInt).bmod (2 ^ 32))
    (hrange : 0 ≤ b + offset.toInt → b + offset.toInt < 2 ^ 31 → -2 ^ 63 ≤ y ∧ y < 2 ^ 63) :
    ObeysSeek p offset whence ↔ Seekable p offset whence := by
  have hplace : Seekable p offset whence ↔ 0 ≤ b + offset.toInt ∧ b + offset.toInt < 2 ^ 31 := by
    simp only [Seekable, hbase, Option.some.injEq, forall_eq']
  rw [hplace]
  cases hsum : offT y with
  | error f =>
      refine iff_of_false ?_ fun h => ?_
      · rintro ⟨r, p', hs, _⟩
        rw [hseek, hsum] at hs
        cases hs
      · obtain ⟨hlo, hhi⟩ := hrange h.1 h.2
        rw [(offT_of_range hlo hhi).1] at hsum
        cases hsum
  | ok sum =>
      have hn : sum.toInt32.toInt = (b + offset.toInt).bmod (2 ^ 32) := by
        rw [Int64.toInt_toInt32, toInt_of_offT hsum, hy]
      rw [← moveTo_obeys_iff p h0 hn]
      have hs : p.seek offset whence = .ok (p.moveTo sum.toInt32) := by rw [hseek, hsum]
      constructor
      · rintro ⟨r, p', hs', hlaw⟩
        rw [hs, Except.ok.injEq] at hs'
        rcases hlaw with ⟨b', hb', hx, hret, hoff, _⟩ | hlaw
        · obtain rfl := Option.some.inj (hbase.symm.trans hb')
          exact .inl ⟨hx, by rw [hs']; exact hret, by rw [hs']; exact hoff⟩
        · exact .inr (by rw [hs']; exact hlaw)
      · rintro (⟨hx, hret, hoff⟩ | hlaw)
        · exact ⟨_, _, hs, .inl ⟨b, hbase, hx, hret, hoff, rfl⟩⟩
        · exact ⟨_, _, hs, .inr hlaw⟩

/-- **When a seek does what it should**: exactly when the place asked for is the value of a
non-negative `int`, or `whence` is none of the three kinds. -/
theorem obeysSeek_iff (p : QByteArrayDataProvider) (h0 : 0 ≤ p.mOff) (offset : Int64)
    (whence : Whence) : ObeysSeek p offset whence ↔ Seekable p offset whence := by
  have hpos : 0 ≤ p.mOff.toInt := by simpa using Int64.le_iff_toInt_le.mp h0
  have hoff := offset.toInt_lt
  have hoff' := offset.le_toInt
  cases whence with
  | seekSet =>
      have hsame : offT offset.toInt = .ok offset := by
        rw [(offT_of_range hoff' hoff).1, Int64.ofInt_toInt]
      refine obeysSeek_iff_of_base (y := offset.toInt) hpos rfl ?_ ?_ fun _ _ => ⟨hoff', hoff⟩
      · rw [hsame, seek]
      · rw [Int.zero_add]
  | seekCur =>
      refine obeysSeek_iff_of_base (y := p.mOff.toInt32.toInt + offset.toInt) hpos rfl rfl ?_ ?_
      · rw [Int64.toInt_toInt32, Int.bmod_add_bmod]
      · rw [Int64.toInt_toInt32]
        exact range_of_seekCur hpos p.mOff.toInt_lt
  | seekEnd =>
      refine obeysSeek_iff_of_base (y := p.mArray.size + offset.toInt) hpos rfl rfl rfl ?_
      intro hlo hhi
      omega
  | other n =>
      exact iff_of_true ⟨_, p, rfl, .inr ⟨rfl, rfl⟩⟩ (fun b hb => nomatch hb)

/-! ## Runs -/

omit [LibGpgError] in
/-- From a position that is not negative, nothing is accessed before the start. -/
theorem accesses_nonneg {p : QByteArrayDataProvider} (h0 : 0 ≤ p.mOff) (op : Op) :
    ∀ a ∈ accesses p op, 0 ≤ a.offset := by
  have hpos : 0 ≤ p.mOff.toInt := by simpa using Int64.le_iff_toInt_le.mp h0
  have hstore : ∀ (ba : QByteArray) (n : UInt64),
      ∀ a ∈ storeAccesses ⟨ba, p.mOff⟩ n, 0 ≤ a.offset := by
    intro ba n a ha
    simp only [storeAccesses] at ha
    split_ifs at ha
    · cases ha
    · obtain rfl := List.mem_singleton.mp ha
      exact hpos
    · cases ha
  have hinit : ∀ (ba : QByteArray) (memory : ℕ → UInt8) (n : UInt64),
      ∀ a ∈ initAccesses ba memory n, 0 ≤ a.offset := by
    intro ba memory n a ha
    simp only [initAccesses] at ha
    split_ifs at ha
    · obtain rfl := List.mem_singleton.mp ha
      exact Int.natCast_nonneg _
    · cases ha
  intro a ha
  cases op with
  | read buffer bufSize =>
      simp only [accesses] at ha
      split_ifs at ha
      · cases ha
      · cases hrest : offT (p.mArray.size - p.mOff.toInt) with
        | error f => simp [hrest] at ha
        | ok rest =>
            simp only [hrest] at ha
            split_ifs at ha
            · obtain rfl := List.mem_singleton.mp ha
              exact hpos
            · cases ha
  | write memory buffer bufSize =>
      simp only [accesses] at ha
      split_ifs at ha
      · cases ha
      · rcases List.mem_append.mp ha with ha | ha
        · exact hinit _ _ _ a ha
        · split at ha
          · cases ha
          · exact hstore _ _ a ha
      · exact hstore _ _ a ha
  | seek offset whence => cases ha

omit [LibGpgError] in
theorem nonneg_iff_toInt {x : Int64} : 0 ≤ x ↔ 0 ≤ x.toInt := by
  rw [Int64.le_iff_toInt_le]
  simp

omit [LibGpgError] in
/-- Moving on by `n` bytes. -/
theorem toInt_advance {x : Int64} {n : UInt64} (h0 : 0 ≤ x) (h : x.toInt + n.toNat < 2 ^ 63) :
    (x.toUInt64 + n).toInt64.toInt = x.toInt + n.toNat := by
  obtain ⟨hx, hlt⟩ := ofNat_toInt h0
  have hx0 := nonneg_iff_toInt.mp h0
  obtain ⟨pos, hpos⟩ : ∃ pos, x.toInt.toNat = pos := ⟨_, rfl⟩
  obtain ⟨m, hm, rfl⟩ : ∃ m < 2 ^ 64, n = UInt64.ofNat m :=
    ⟨n.toNat, n.toNat_lt, UInt64.ofNat_toNat.symm⟩
  rw [toNat_ofNat hm] at h ⊢
  rw [hpos] at hx hlt
  rw [hx, Int64.toUInt64_ofNat', ← UInt64.ofNat_add, UInt64.toInt64_ofNat',
    Int64.toInt_ofNat_of_lt (by omega), Int64.toInt_ofNat_of_lt hlt, Int.natCast_add]

omit [LibGpgError] in
theorem nonneg_advance {x : Int64} {n : UInt64} (h0 : 0 ≤ x) (h : x.toInt + n.toNat < 2 ^ 63) :
    0 ≤ (x.toUInt64 + n).toInt64 := by
  have hpos := nonneg_iff_toInt.mp h0
  rw [nonneg_iff_toInt, toInt_advance h0 h]
  omega

omit [LibGpgError] in
theorem toInt_lt_size {ba : QByteArray} {x : Int64} (h : ¬ Int64.ofNat ba.size ≤ x) :
    x.toInt < ba.size := by
  have := ba.size_lt
  rw [Int64.le_iff_toInt_le, Int64.toInt_ofNat_of_lt (by omega)] at h
  omega

/-- The bytes from the position on. -/
def unread (p : QByteArrayDataProvider) : List UInt8 := p.mArray.bytes.drop p.mOff.toInt.toNat

omit [LibGpgError] in
theorem toNat_min (a b : UInt64) : (min a b).toNat = min a.toNat b.toNat := by
  by_cases h : a ≤ b
  · rw [show min a b = a from if_pos h, Nat.min_eq_left (UInt64.le_iff_toNat_le.mp h)]
  · rw [show min a b = b from if_neg h]
    rw [UInt64.le_iff_toNat_le] at h
    omega

omit [LibGpgError] in
/-- What is copied from a place in the array, as far as the array goes. -/
theorem load_min {ba : QByteArray} {pos : ℕ} (hpos : pos ≤ ba.size) (n : ℕ) :
    ba.load pos (UInt64.ofNat (min n (ba.size - pos))) = .ok ((ba.bytes.drop pos).take n) := by
  have hsize := ba.size_lt
  have hget : (UInt64.ofNat (min n (ba.size - pos))).toNat = min n (ba.size - pos) :=
    toNat_ofNat (by omega)
  rw [QByteArray.load, if_pos (by rw [hget]; omega), Int.toNat_natCast, hget]
  congr 1
  rw [List.take_eq_take_iff, List.length_drop]
  simp only [QByteArray.size]
  omega

/-- **One read**: it delivers what is left to be read, but no more than asked for. -/
theorem read_eq {p : QByteArrayDataProvider} (h0 : 0 ≤ p.mOff) (n : UInt64) :
    ∃ r p', p.read true n = .ok ((r, p.unread.take n.toNat), p') ∧
      r.ret.toInt = (p.unread.take n.toNat).length ∧ p'.mArray = p.mArray ∧
      p'.mOff.toInt = p.mOff.toInt + (p.unread.take n.toNat).length := by
  obtain ⟨ba, off⟩ := p
  obtain ⟨hoff, hlt⟩ := ofNat_toInt h0
  obtain ⟨pos, hpos⟩ : ∃ pos, off.toInt.toNat = pos := ⟨_, rfl⟩
  simp only [hpos] at hoff hlt
  subst hoff
  have hsize := ba.size_lt
  have hint : (Int64.ofNat pos).toInt = pos := Int64.toInt_ofNat_of_lt hlt
  have hunread : unread ⟨ba, Int64.ofNat pos⟩ = ba.bytes.drop pos := by
    rw [unread, hint, Int.toNat_natCast]
  rw [hunread]
  by_cases hn : n = 0
  · exact ⟨⟨0, 0⟩, ⟨ba, Int64.ofNat pos⟩, by simp [read, hn], by simp [hn], rfl, by simp [hn]⟩
  by_cases heof : ba.size ≤ pos
  · -- at the end or beyond it
    have hnil : ba.bytes.drop pos = [] := List.drop_eq_nil_of_le heof
    have hle : Int64.ofNat ba.size ≤ Int64.ofNat pos :=
      (ofNat_le_ofNat (by omega) hlt).mpr heof
    refine ⟨⟨0, 0⟩, ⟨ba, Int64.ofNat pos⟩, ?_, by simp [hnil], rfl, by simp [hnil]⟩
    simp [read, hn, hle, hnil]
  · have hno : ¬ Int64.ofNat ba.size ≤ Int64.ofNat pos := by
      rw [ofNat_le_ofNat (by omega) hlt]
      exact heof
    obtain ⟨hrest, hrest'⟩ := offT_of_range (x := (ba.size : ℤ) - pos) (by omega) (by omega)
    have hroom : (Int64.ofInt ((ba.size : ℤ) - pos)).toUInt64 = UInt64.ofNat (ba.size - pos) := by
      rw [show (ba.size : ℤ) - pos = ((ba.size - pos : ℕ) : ℤ) by omega]
      rfl
    -- the amount is positive, and within the array
    obtain ⟨amount, hamount⟩ : ∃ a, min n.toNat (ba.size - pos) = a := ⟨_, rfl⟩
    have hmin : min n (UInt64.ofNat (ba.size - pos)) = UInt64.ofNat amount := by
      apply UInt64.toNat.inj
      rw [toNat_min, toNat_ofNat (by omega), toNat_ofNat (by omega), hamount]
    have hnpos : n.toNat ≠ 0 := fun h => hn (UInt64.toNat.inj h)
    have hget : (UInt64.ofNat amount).toNat = amount := toNat_ofNat (by omega)
    have hpositive : (0 : UInt64) < UInt64.ofNat amount := by
      rw [UInt64.lt_iff_toNat_lt, hget, UInt64.toNat_zero]
      omega
    have hload : ba.load (Int64.ofNat pos).toInt (UInt64.ofNat amount) =
        .ok ((ba.bytes.drop pos).take n.toNat) := by
      rw [hint, ← hamount]
      exact load_min (by omega) n.toNat
    have hlength : ((ba.bytes.drop pos).take n.toNat).length = amount := by
      rw [List.length_take, List.length_drop, ← hamount]
      rfl
    refine ⟨⟨(UInt64.ofNat amount).toInt64, 0⟩,
      ⟨ba, ((Int64.ofNat pos).toUInt64 + UInt64.ofNat amount).toInt64⟩, ?_, ?_, rfl, ?_⟩
    · simp only [read, hn, hno, if_false, Bool.true_eq_false, hint, hrest, hroom, hmin, hpositive,
        if_true]
      rw [← hint, hload]
    · rw [hlength, UInt64.toInt64_ofNat', Int64.toInt_ofNat_of_lt (by omega)]
    · rw [hlength, toInt_advance h0 (by rw [hint, hget]; omega), hget]

/-- A read moves the position on, within the array. -/
theorem nonneg_of_read {p p' : QByteArrayDataProvider} {buffer : Bool} {bufSize : UInt64}
    {o : IoResult × List UInt8} (h0 : 0 ≤ p.mOff) (h : p.read buffer bufSize = .ok (o, p')) :
    0 ≤ p'.mOff := by
  cases buffer with
  | false =>
      simp only [read] at h
      split_ifs at h
      · obtain ⟨-, rfl⟩ := Prod.mk.inj (Except.ok.inj h)
        exact h0
      · obtain ⟨-, rfl⟩ := Prod.mk.inj (Except.ok.inj h)
        exact h0
  | true =>
      obtain ⟨r, p'', hread, -, -, hoff⟩ := read_eq h0 bufSize
      obtain ⟨-, rfl⟩ := Prod.mk.inj (Except.ok.inj (h.symm.trans hread))
      have hpos := nonneg_iff_toInt.mp h0
      exact nonneg_iff_toInt.mpr (by omega)

/-- A write moves the position on, to where the array ends at most. -/
theorem nonneg_of_store {p p' : QByteArrayDataProvider} {buffer : List UInt8} {bufSize : UInt64}
    {r : IoResult} (h0 : 0 ≤ p.mOff) (h : p.store buffer bufSize = .ok (r, p')) :
    0 ≤ p'.mOff := by
  simp only [store] at h
  split_ifs at h with heof hroom
  · obtain ⟨-, rfl⟩ := Prod.mk.inj (Except.ok.inj h)
    exact h0
  · cases hcpy : p.mArray.memcpy p.mOff.toInt buffer bufSize with
    | error f => simp only [hcpy, reduceCtorEq] at h
    | ok ba' =>
        simp only [hcpy] at h
        obtain ⟨-, rfl⟩ := Prod.mk.inj (Except.ok.inj h)
        have hlt := toInt_lt_size heof
        have hsize := p.mArray.size_lt
        obtain ⟨hx, -⟩ := ofNat_toInt h0
        rw [hx, UInt64.le_iff_toNat_le, toNat_room (by omega)] at hroom
        exact nonneg_advance h0 (by omega)

theorem nonneg_of_write {p p' : QByteArrayDataProvider} {memory : ℕ → UInt8}
    {buffer : Option (List UInt8)} {bufSize : UInt64} {r : IoResult} (h0 : 0 ≤ p.mOff)
    (h : p.write memory buffer bufSize = .ok (r, p')) : 0 ≤ p'.mOff := by
  rcases buffer with _ | buffer
  · simp only [write] at h
    split_ifs at h with hzero
    · obtain ⟨-, rfl⟩ := Prod.mk.inj (Except.ok.inj h)
      exact h0
    · obtain ⟨-, rfl⟩ := Prod.mk.inj (Except.ok.inj h)
      exact h0
  · simp only [write] at h
    split_ifs at h with hzero heof
    · obtain ⟨-, rfl⟩ := Prod.mk.inj (Except.ok.inj h)
      exact h0
    · cases hroom : resizeAndInit p.mArray memory (p.mOff.toUInt64 + bufSize) with
      | error f => simp only [hroom, reduceCtorEq] at h
      | ok ba =>
          simp only [hroom] at h
          exact nonneg_of_store (p := { p with mArray := ba.1 }) h0 h
    · exact nonneg_of_store h0 h

/-- A seek that obeys the law leaves a position that is not negative. -/
theorem nonneg_of_seek {p p' : QByteArrayDataProvider} {offset : Int64} {whence : Whence}
    {r : IoResult} (h0 : 0 ≤ p.mOff) (hlaw : ObeysSeek p offset whence)
    (h : p.seek offset whence = .ok (r, p')) : 0 ≤ p'.mOff := by
  obtain ⟨r₁, p₁, hs, hcase⟩ := hlaw
  rw [h] at hs
  obtain ⟨rfl, rfl⟩ := Prod.mk.inj (Except.ok.inj hs)
  rcases hcase with ⟨b, _, hb, _, hoff, _⟩ | ⟨_, rfl⟩
  · exact nonneg_iff_toInt.mpr (by omega)
  · exact h0

/-- A completed call of a provider. -/
abbrev Called := Transition QByteArrayDataProvider Op (IoResult × List UInt8)

/-- A step that is a seek does what it should. -/
def SeekObeys (t : Called) : Prop :=
  ∀ offset whence, t.input = .seek offset whence → ObeysSeek t.source offset whence

omit [LibGpgError] in
/-- A step that is a seek asks for a place that a non-negative `int` can hold. -/
def SeekInRange (t : Called) : Prop :=
  ∀ offset whence, t.input = .seek offset whence → Seekable t.source offset whence

/-- One call from a position that is not negative. -/
theorem nonneg_of_step {p p' : QByteArrayDataProvider} {op : Op} {o : IoResult × List UInt8}
    (h0 : 0 ≤ p.mOff) (h : step p op = .ok (o, p')) (hseek : SeekObeys ⟨p, op, o, p'⟩) :
    0 ≤ p'.mOff := by
  cases op with
  | read buffer bufSize => exact nonneg_of_read h0 h
  | write memory buffer bufSize =>
      simp only [step] at h
      cases hw : p.write memory buffer bufSize with
      | error f => simp only [hw, reduceCtorEq] at h
      | ok w =>
          simp only [hw] at h
          obtain ⟨-, rfl⟩ := Prod.mk.inj (Except.ok.inj h)
          exact nonneg_of_write h0 hw
  | seek offset whence =>
      simp only [step] at h
      cases hs : p.seek offset whence with
      | error f => simp only [hs, reduceCtorEq] at h
      | ok r =>
          simp only [hs] at h
          obtain ⟨-, rfl⟩ := Prod.mk.inj (Except.ok.inj h)
          exact nonneg_of_seek h0 (hseek _ _ rfl) hs

/-- **The law of seeks in a run.**  From a position that is not negative, the next seek does
what it should exactly when it asks for a place that a non-negative `int` can hold, and so
do all seeks of a run.  In a run of such seeks the position stays non-negative and neither
the calls made nor the next one access memory before the start of the array. -/
theorem seekLaw_iff (p : QByteArrayDataProvider) (h0 : 0 ≤ p.mOff) :
    (∀ offset whence, ObeysSeek p offset whence ↔ Seekable p offset whence) ∧
    ∀ ts p', Run step p ts p' →
      ((∀ t ∈ ts, SeekObeys t) ↔ ∀ t ∈ ts, SeekInRange t) ∧
      ((∀ t ∈ ts, SeekInRange t) → 0 ≤ p'.mOff ∧
        (∀ t ∈ ts, 0 ≤ t.target.mOff ∧ ∀ a ∈ accesses t.source t.input, 0 ≤ a.offset) ∧
        ∀ op, ∀ a ∈ accesses p' op, 0 ≤ a.offset) := by
  refine ⟨obeysSeek_iff p h0, fun ts p' hrun => ?_⟩
  have hiff : ∀ m i o m', 0 ≤ m.mOff → step m i = .ok (o, m') →
      (SeekObeys ⟨m, i, o, m'⟩ ↔ SeekInRange ⟨m, i, o, m'⟩) ∧
        (SeekObeys ⟨m, i, o, m'⟩ → 0 ≤ m'.mOff) := by
    intro m i o m' hm hstep
    refine ⟨?_, nonneg_of_step hm hstep⟩
    exact forall₃_congr fun offset whence _ => obeysSeek_iff m hm offset whence
  refine ⟨hrun.forall_iff (fun q => 0 ≤ q.mOff) _ _ h0 hiff, fun hall => ?_⟩
  obtain ⟨hend, hts⟩ := hrun.absorbing_of (fun q => 0 ≤ q.mOff) SeekInRange
    (fun t => 0 ≤ t.target.mOff ∧ ∀ a ∈ accesses t.source t.input, 0 ≤ a.offset) h0 hall (by
      intro m i o m' hm hstep hrange
      have hm' := (hiff m i o m' hm hstep).2 ((hiff m i o m' hm hstep).1.mpr hrange)
      exact ⟨hm', hm', accesses_nonneg hm i⟩)
  exact ⟨hend, hts, accesses_nonneg hend⟩

omit [LibGpgError] in
/-- The law, at three bytes with the position on the second. -/
theorem seekLaw_threeBytes :
    letI := LibGpgError.documented
    (∀ offset whence, ObeysSeek threeBytes offset whence ↔ Seekable threeBytes offset whence) ∧
    ∀ ts p', Run step threeBytes ts p' →
      ((∀ t ∈ ts, SeekObeys t) ↔ ∀ t ∈ ts, SeekInRange t) ∧
      ((∀ t ∈ ts, SeekInRange t) → 0 ≤ p'.mOff ∧
        (∀ t ∈ ts, 0 ≤ t.target.mOff ∧ ∀ a ∈ accesses t.source t.input, 0 ≤ a.offset) ∧
        ∀ op, ∀ a ∈ accesses p' op, 0 ≤ a.offset) :=
  letI := LibGpgError.documented
  seekLaw_iff threeBytes (by decide)

omit [LibGpgError] in
/-- A seek back over the start is carried out, and a read then goes before it. -/
theorem not_seekLaw_back :
    letI := LibGpgError.documented
    ¬ ∀ p : QByteArrayDataProvider, 0 ≤ p.mOff →
      (∀ offset whence, ObeysSeek p offset whence) ∧
      ∀ ts p', Run step p ts p' → 0 ≤ p'.mOff ∧ ∀ op, ∀ a ∈ accesses p' op, 0 ≤ a.offset := by
  let := LibGpgError.documented
  intro h
  have hrun : Run step threeBytes
      [⟨threeBytes, .seek (-2) .seekCur, (⟨-1, 0⟩, []), { threeBytes with mOff := -1 }⟩]
      { threeBytes with mOff := -1 } := .single rfl
  have hpos := ((h threeBytes (by decide)).2 _ _ hrun).1
  exact absurd hpos (by decide)

end Seek

end QByteArrayDataProvider

end Gpgmepp
