import Gpgmepp.Error
import Gpgmepp.Lib.Overlay
import Mathlib.Data.UInt

/-!
# `QByteArrayDataProvider`

Keeps the data of a gpgme operation in a `QByteArray` with a position, and should behave
like a file: `ObeysFile`.

`write` makes room only when the position is at or beyond the end, and the size it then
asks for is a `size_t` that `QByteArray::resize` takes as an `int`.  So a write that
begins inside the array and runs past its end trips the assertion, and one that needs
more than an `int` can count changes the array and then fails.  These two are the only
deviations: `obeysFile_iff`.

## Main definitions

* `QByteArray`, `QByteArray.resize`, `memset`, `memcpy` — byte arrays, with the bounds
  of memory accesses.
* `QByteArrayDataProvider.write` — the function of the source.
* `ObeysFile` — what a write should do.
-/

namespace Gpgmepp

open Overlay

/-- What ends a program: an access outside of an array, or a failed `assert`. -/
inductive Fault | outOfBounds | assertionFailed
  deriving DecidableEq

/-- `QByteArray`; its size is an `int`. -/
structure QByteArray where
  bytes : List UInt8
  length_lt : bytes.length < 2 ^ 31

namespace QByteArray

/-- `size()`, which fits in every type it is converted to. -/
def size (ba : QByteArray) : ℕ := ba.bytes.length

/-- The size that `resize` gives for an argument `n` of any size: as an `int`, with the
negative ones taken as zero. -/
def sizeAsInt (n : ℕ) : ℕ := (Int32.ofNat n).toNatClampNeg

theorem sizeAsInt_of_lt {n : ℕ} (h : n < 2 ^ 31) : sizeAsInt n = n := by
  simp only [sizeAsInt, Int32.toNatClampNeg, Int32.toInt_ofNat_of_lt h]
  omega

/-- `resize(int)`.  The common beginning stays; new bytes hold whatever was in the
memory. -/
def resize (ba : QByteArray) (memory : ℕ → UInt8) (n : Int32) : QByteArray where
  bytes := (ba.bytes ++ (List.range' ba.size (n.toNatClampNeg - ba.size)).map memory).take
    n.toNatClampNeg
  length_lt := by
    have := n.toInt_lt
    simp only [List.length_take, Int32.toNatClampNeg]
    omega

/-- `memset(ba.data() + off, value, count)`. -/
def memset (ba : QByteArray) (off : ℤ) (value : UInt8) (count : UInt64) :
    Except Fault QByteArray :=
  if h : 0 ≤ off ∧ off + count.toNat ≤ ba.size then
    .ok ⟨overlay ba.bytes off.toNat (List.replicate count.toNat value), by
      rw [length_overlay (by simp only [List.length_replicate]; simp only [size] at h; omega)]
      exact ba.length_lt⟩
  else .error .outOfBounds

/-- `memcpy(ba.data() + off, src, count)`. -/
def memcpy (ba : QByteArray) (off : ℤ) (src : List UInt8) (count : UInt64) :
    Except Fault QByteArray :=
  if h : (0 ≤ off ∧ off + count.toNat ≤ ba.size) ∧ count.toNat ≤ src.length then
    .ok ⟨overlay ba.bytes off.toNat (src.take count.toNat), by
      rw [length_overlay (by simp only [List.length_take]; simp only [size] at h; omega)]
      exact ba.length_lt⟩
  else .error .outOfBounds

theorem ext_bytes {a b : QByteArray} (h : a.bytes = b.bytes) : a = b := by
  cases a; cases b; cases h; rfl

theorem size_lt (ba : QByteArray) : ba.size < 2 ^ 31 := ba.length_lt

@[simp] theorem size_resize (ba : QByteArray) (memory : ℕ → UInt8) (n : Int32) :
    (ba.resize memory n).size = n.toNatClampNeg := by
  simp only [resize, size, List.length_take, List.length_append, List.length_map,
    List.length_range']
  omega

/-- Growing keeps all bytes and adds some. -/
theorem bytes_resize {ba : QByteArray} (memory : ℕ → UInt8) {n : Int32}
    (h : ba.size ≤ n.toNatClampNeg) :
    ∃ fresh, (ba.resize memory n).bytes = ba.bytes ++ fresh ∧
      fresh.length = n.toNatClampNeg - ba.size := by
  refine ⟨_, List.take_of_length_le ?_, by simp⟩
  simp only [size] at h
  simp only [List.length_append, List.length_map, List.length_range', size]
  omega

/-- A `resize` to the same size changes nothing. -/
theorem resize_size {ba : QByteArray} (memory : ℕ → UInt8) {n : Int32}
    (h : n.toNatClampNeg = ba.size) : ba.resize memory n = ba := by
  obtain ⟨fresh, hbytes, hlen⟩ := bytes_resize memory h.ge
  apply ext_bytes
  have : fresh = [] := List.length_eq_zero_iff.mp (by omega)
  simpa [this] using hbytes

/-- Filling within the bounds. -/
theorem memset_eq (ba : QByteArray) {off : ℕ} (value : UInt8) (count : UInt64)
    (h : off + count.toNat ≤ ba.size) :
    ∃ ba', ba.memset off value count = .ok ba' ∧
      ba'.bytes = overlay ba.bytes off (List.replicate count.toNat value) := by
  have hbounds : 0 ≤ (off : ℤ) ∧ (off : ℤ) + count.toNat ≤ ba.size := by omega
  exact ⟨_, dif_pos hbounds, by simp⟩

theorem size_memset {ba ba' : QByteArray} {off : ℤ} {value : UInt8} {count : UInt64}
    (h : ba.memset off value count = .ok ba') : ba'.size = ba.size := by
  simp only [memset] at h
  split at h
  · next hb =>
      obtain rfl := Except.ok.inj h
      apply length_overlay
      simp only [List.length_replicate]
      simp only [size] at hb
      omega
  · cases h

/-- Copying within the bounds. -/
theorem memcpy_eq (ba : QByteArray) {off : ℕ} {src : List UInt8} {count : UInt64}
    (h : off + count.toNat ≤ ba.size) (hcount : count.toNat = src.length) :
    ∃ ba', ba.memcpy off src count = .ok ba' ∧ ba'.bytes = overlay ba.bytes off src := by
  have hbounds : (0 ≤ (off : ℤ) ∧ (off : ℤ) + count.toNat ≤ ba.size) ∧
      count.toNat ≤ src.length := by omega
  exact ⟨_, dif_pos hbounds, by simp [hcount]⟩

end QByteArray

/-- `resizeAndInit(ba, newSize)`. -/
def resizeAndInit (ba : QByteArray) (memory : ℕ → UInt8) (newSize : UInt64) :
    Except Fault (QByteArray × Bool) :=
  let oldSize := UInt64.ofNat ba.size
  let ba := ba.resize memory newSize.toInt64.toInt32
  let ok := newSize == UInt64.ofNat ba.size
  if ok then
    match ba.memset oldSize.toNat 0 (newSize - oldSize) with
    | .error f => .error f
    | .ok ba => .ok (ba, ok)
  else .ok (ba, ok)

/-- The result of a read or a write: a `ssize_t`, and `errno`, zero unless it is set. -/
structure IoResult where
  ret : Int64
  errno : ℕ

/-- `QByteArrayDataProvider`. -/
structure QByteArrayDataProvider where
  mArray : QByteArray
  mOff : Int64

namespace QByteArrayDataProvider

section Write
variable [LibGpgError]

/-- The second half of `write`, after room was made. -/
def store (p : QByteArrayDataProvider) (buffer : List UInt8) (bufSize : UInt64) :
    Except Fault (IoResult × QByteArrayDataProvider) :=
  if Int64.ofNat p.mArray.size ≤ p.mOff then .ok (⟨-1, Error.setSystemError .eio⟩, p)
  else if bufSize ≤ UInt64.ofNat p.mArray.size - p.mOff.toUInt64 then
    match p.mArray.memcpy p.mOff.toInt buffer bufSize with
    | .error f => .error f
    | .ok mArray => .ok (⟨bufSize.toInt64, 0⟩, ⟨mArray, (p.mOff.toUInt64 + bufSize).toInt64⟩)
  else .error .assertionFailed

/-- `QByteArrayDataProvider::write(buffer, bufSize)`. -/
def write (p : QByteArrayDataProvider) (memory : ℕ → UInt8) (buffer : Option (List UInt8))
    (bufSize : UInt64) : Except Fault (IoResult × QByteArrayDataProvider) :=
  if bufSize = 0 then .ok (⟨0, 0⟩, p)
  else
    match buffer with
    | none => .ok (⟨-1, Error.setSystemError .einval⟩, p)
    | some buffer =>
        if Int64.ofNat p.mArray.size ≤ p.mOff then
          match resizeAndInit p.mArray memory (p.mOff.toUInt64 + bufSize) with
          | .error f => .error f
          | .ok (mArray, _) => store { p with mArray } buffer bufSize
        else store p buffer bufSize

/-- What a write of `d` at the position should do: the array is what a file would be and
the position moves on, or the write fails and nothing changes. -/
def ObeysFile (p : QByteArrayDataProvider) (memory : ℕ → UInt8) (d : List UInt8) : Prop :=
  ∃ r p', p.write memory (some d) (UInt64.ofNat d.length) = .ok (r, p') ∧
    ((r.ret.toInt = d.length ∧ p'.mOff.toInt = p.mOff.toInt + d.length ∧
        p'.mArray.bytes = fileWrite 0 p.mArray.bytes p.mOff.toInt.toNat d) ∨
      (r.ret = -1 ∧ p' = p))

end Write

/-! ## Conversions -/

theorem ofNat_toInt {x : Int64} (h : 0 ≤ x) :
    x = Int64.ofNat x.toInt.toNat ∧ x.toInt.toNat < 2 ^ 63 := by
  have hlt := x.toInt_lt
  have h0 : 0 ≤ x.toInt := by simpa using Int64.le_iff_toInt_le.mp h
  refine ⟨?_, by omega⟩
  rw [← Int64.toInt_inj, Int64.toInt_ofNat_of_lt (by omega)]
  omega

theorem ofNat_le_ofNat {a b : ℕ} (ha : a < 2 ^ 63) (hb : b < 2 ^ 63) :
    Int64.ofNat a ≤ Int64.ofNat b ↔ a ≤ b := by
  rw [Int64.le_iff_toInt_le, Int64.toInt_ofNat_of_lt ha, Int64.toInt_ofNat_of_lt hb]
  omega

theorem toNat_ofNat {n : ℕ} (h : n < 2 ^ 64) : (UInt64.ofNat n).toNat = n := by
  rw [UInt64.toNat_ofNat']
  omega

theorem ofNat_length_ne_zero {d : List UInt8} (hd : d ≠ []) (hlen : d.length < 2 ^ 64) :
    UInt64.ofNat d.length ≠ 0 := by
  intro h
  have hzero := congrArg UInt64.toNat h
  rw [toNat_ofNat hlen] at hzero
  exact hd (List.length_eq_zero_iff.mp hzero)

/-- A size that was computed as a `size_t` and is then used as an `int`. -/
theorem toNatClampNeg_toInt32 (n : ℕ) :
    (UInt64.ofNat n).toInt64.toInt32.toNatClampNeg = QByteArray.sizeAsInt n := by
  simp [QByteArray.sizeAsInt]

/-- The room from the position to the end. -/
theorem toNat_room {ba : QByteArray} {pos : ℕ} (h : pos ≤ ba.size) :
    (UInt64.ofNat ba.size - (Int64.ofNat pos).toUInt64).toNat = ba.size - pos := by
  have hsize := ba.size_lt
  have hpos : ((Int64.ofNat pos).toUInt64).toNat = pos := by
    rw [Int64.toUInt64_ofNat', toNat_ofNat (by omega)]
  have hba : (UInt64.ofNat ba.size).toNat = ba.size := toNat_ofNat (by omega)
  rw [UInt64.toNat_sub_of_le _ _ (by rw [UInt64.le_iff_toNat_le, hpos, hba]; exact h), hpos, hba]

/-! ## Making room -/

/-- Room for as many bytes as an `int` can count: the array is followed by zeros. -/
theorem resizeAndInit_of_lt {ba : QByteArray} (memory : ℕ → UInt8) {n : ℕ} (hle : ba.size ≤ n)
    (hn : n < 2 ^ 31) : ∃ ba', resizeAndInit ba memory (UInt64.ofNat n) = .ok (ba', true) ∧
      ba'.bytes = ba.bytes ++ List.replicate (n - ba.size) 0 := by
  have hclamp : (UInt64.ofNat n).toInt64.toInt32.toNatClampNeg = n :=
    (toNatClampNeg_toInt32 n).trans (QByteArray.sizeAsInt_of_lt hn)
  obtain ⟨fresh, hbytes, hlen⟩ := QByteArray.bytes_resize memory
    (hclamp.symm ▸ hle : ba.size ≤ _)
  rw [hclamp] at hlen
  have hsize := QByteArray.size_resize ba memory (UInt64.ofNat n).toInt64.toInt32
  rw [hclamp] at hsize
  have hold : (UInt64.ofNat ba.size).toNat = ba.size := toNat_ofNat (by omega)
  have hcount : (UInt64.ofNat n - UInt64.ofNat ba.size).toNat = n - ba.size := by
    rw [UInt64.toNat_sub_of_le _ _ (by
      rw [UInt64.le_iff_toNat_le, hold, toNat_ofNat (by omega)]; exact hle), hold,
      toNat_ofNat (by omega)]
  -- all the new bytes are cleared
  have hroom : (UInt64.ofNat ba.size).toNat + (UInt64.ofNat n - UInt64.ofNat ba.size).toNat ≤
      (ba.resize memory (UInt64.ofNat n).toInt64.toInt32).size := by
    rw [hold, hcount, hsize]
    omega
  obtain ⟨ba', hset, hbytes'⟩ := QByteArray.memset_eq _ 0 _ hroom
  refine ⟨ba', by simp only [resizeAndInit, hsize, beq_self_eq_true, if_true, hset], ?_⟩
  rw [hbytes', hold, hcount, hbytes]
  have hdrop : fresh.drop (n - ba.size) = [] := List.drop_eq_nil_of_le hlen.le
  have hover := overlay_append ba.bytes fresh (List.replicate (n - ba.size) 0)
  rwa [List.length_replicate, hdrop, List.append_nil] at hover

/-- Room for more: the array has the size that the number is as an `int`, whatever else
happens, and nothing happens when that is its size. -/
theorem resizeAndInit_of_le {ba : QByteArray} {memory : ℕ → UInt8} {n : ℕ} :
    (∀ ba' ok, resizeAndInit ba memory (UInt64.ofNat n) = .ok (ba', ok) →
        ba'.size = QByteArray.sizeAsInt n) ∧
      (QByteArray.sizeAsInt n = ba.size →
        ∃ ok, resizeAndInit ba memory (UInt64.ofNat n) = .ok (ba, ok)) := by
  have hclamp := toNatClampNeg_toInt32 n
  constructor
  · intro ba' ok h
    simp only [resizeAndInit] at h
    split at h
    · cases hset : (ba.resize memory (UInt64.ofNat n).toInt64.toInt32).memset
        (UInt64.ofNat ba.size).toNat 0 (UInt64.ofNat n - UInt64.ofNat ba.size) with
      | error f => simp only [hset, reduceCtorEq] at h
      | ok ba₁ =>
          simp only [hset, Except.ok.injEq, Prod.mk.injEq] at h
          rw [← h.1, QByteArray.size_memset hset, QByteArray.size_resize, hclamp]
    · obtain ⟨rfl, -⟩ := Prod.mk.inj (Except.ok.inj h)
      rw [QByteArray.size_resize, hclamp]
  · intro hsame
    have hresize := QByteArray.resize_size memory (hclamp.trans hsame)
    have hold : (UInt64.ofNat ba.size).toNat = ba.size :=
      toNat_ofNat (by have := ba.size_lt; omega)
    simp only [resizeAndInit, hresize]
    split
    · next heq =>
        have hcount : UInt64.ofNat n - UInt64.ofNat ba.size = 0 := by
          rw [eq_of_beq heq, UInt64.sub_self]
        have hroom : (UInt64.ofNat ba.size).toNat + (0 : UInt64).toNat ≤ ba.size := by
          rw [hold]
          simp
        obtain ⟨ba', hset, hbytes⟩ := QByteArray.memset_eq ba 0 0 hroom
        have hba : ba' = ba := QByteArray.ext_bytes (by rw [hbytes]; simp [overlay])
        exact ⟨_, by rw [hcount, hset, hba]⟩
    · exact ⟨_, rfl⟩

/-! ## Storing -/

section Store
variable [LibGpgError]

theorem store_at_end {ba : QByteArray} {pos : ℕ} (hpos : pos < 2 ^ 63) (h : ba.size ≤ pos)
    (d : List UInt8) (n : UInt64) :
    store ⟨ba, Int64.ofNat pos⟩ d n =
      .ok (⟨-1, Error.setSystemError .eio⟩, ⟨ba, Int64.ofNat pos⟩) := by
  have := ba.size_lt
  rw [store, if_pos ((ofNat_le_ofNat (by omega) hpos).mpr h)]

/-- Bytes that fit in behind the position are stored there. -/
theorem store_inside {ba : QByteArray} {pos : ℕ} {d : List UInt8} (hd : d ≠ [])
    (h : pos + d.length ≤ ba.size) :
    ∃ r p', store ⟨ba, Int64.ofNat pos⟩ d (UInt64.ofNat d.length) = .ok (r, p') ∧
      r.ret.toInt = d.length ∧ p'.mOff.toInt = pos + d.length ∧
      p'.mArray.bytes = overlay ba.bytes pos d := by
  have hsize := ba.size_lt
  have hpos : 0 < d.length := List.length_pos_iff.mpr hd
  have hno : ¬ Int64.ofNat ba.size ≤ Int64.ofNat pos := by
    rw [ofNat_le_ofNat (by omega) (by omega)]
    omega
  have hlen : (UInt64.ofNat d.length).toNat = d.length := toNat_ofNat (by omega)
  have hroom : UInt64.ofNat d.length ≤ UInt64.ofNat ba.size - (Int64.ofNat pos).toUInt64 := by
    rw [UInt64.le_iff_toNat_le, hlen, toNat_room (by omega)]
    omega
  obtain ⟨ba', hcpy, hbytes⟩ := QByteArray.memcpy_eq ba (hlen.symm ▸ h) hlen
  have hoff : (Int64.ofNat pos).toInt = pos := Int64.toInt_ofNat_of_lt (by omega)
  refine ⟨⟨(UInt64.ofNat d.length).toInt64, 0⟩,
    ⟨ba', ((Int64.ofNat pos).toUInt64 + UInt64.ofNat d.length).toInt64⟩, ?_, ?_, ?_, hbytes⟩
  · simp only [store, hno, if_false, hroom, if_true, hoff, hcpy]
  · rw [UInt64.toInt64_ofNat', Int64.toInt_ofNat_of_lt (by omega)]
  · rw [Int64.toUInt64_ofNat', ← UInt64.ofNat_add, UInt64.toInt64_ofNat',
      Int64.toInt_ofNat_of_lt (by omega)]
    omega

/-- Bytes that run past the end trip the assertion. -/
theorem store_across {ba : QByteArray} {pos : ℕ} {d : List UInt8} (hlt : pos < ba.size)
    (hlen : d.length < 2 ^ 64) (h : ba.size < pos + d.length) :
    store ⟨ba, Int64.ofNat pos⟩ d (UInt64.ofNat d.length) = .error .assertionFailed := by
  have hsize := ba.size_lt
  have hno : ¬ Int64.ofNat ba.size ≤ Int64.ofNat pos := by
    rw [ofNat_le_ofNat (by omega) (by omega)]
    omega
  have hroom : ¬ UInt64.ofNat d.length ≤ UInt64.ofNat ba.size - (Int64.ofNat pos).toUInt64 := by
    rw [UInt64.le_iff_toNat_le, toNat_ofNat hlen, toNat_room hlt.le]
    omega
  rw [store, if_neg hno, if_neg hroom]

/-! ## Writes -/

/-- A write that begins inside the array obeys the law exactly when it ends there. -/
theorem obeysFile_iff_of_lt {ba : QByteArray} {pos : ℕ} {memory : ℕ → UInt8} {d : List UInt8}
    (hpos : pos < 2 ^ 63) (hd : d ≠ []) (hlen : d.length < 2 ^ 64) (hlt : pos < ba.size) :
    ObeysFile ⟨ba, Int64.ofNat pos⟩ memory d ↔ pos + d.length ≤ ba.size := by
  have hsize := ba.size_lt
  have hpos' : (Int64.ofNat pos).toInt = pos := Int64.toInt_ofNat_of_lt hpos
  have hwrite : write ⟨ba, Int64.ofNat pos⟩ memory (some d) (UInt64.ofNat d.length) =
      store ⟨ba, Int64.ofNat pos⟩ d (UInt64.ofNat d.length) := by
    have hno : ¬ Int64.ofNat ba.size ≤ Int64.ofNat pos := by
      rw [ofNat_le_ofNat (by omega) hpos]
      omega
    simp only [write, ofNat_length_ne_zero hd hlen, if_false, hno]
  constructor
  · rintro ⟨r, p', hw, _⟩
    by_contra hgt
    rw [hwrite, store_across hlt hlen (by omega)] at hw
    cases hw
  · intro h
    obtain ⟨r, p', hstore, hret, hoff, hbytes⟩ := store_inside hd h
    refine ⟨r, p', hwrite.trans hstore, .inl ⟨hret, by rw [hoff, hpos'], ?_⟩⟩
    rw [hbytes, hpos', Int.toNat_natCast, fileWrite_of_le h]

/-- A write at the end or beyond it first makes room. -/
theorem write_of_le {ba : QByteArray} {pos : ℕ} {d : List UInt8} (memory : ℕ → UInt8)
    (hpos : pos < 2 ^ 63) (hd : d ≠ []) (hlen : d.length < 2 ^ 64) (hle : ba.size ≤ pos) :
    write ⟨ba, Int64.ofNat pos⟩ memory (some d) (UInt64.ofNat d.length) =
      match resizeAndInit ba memory (UInt64.ofNat (pos + d.length)) with
      | .error f => .error f
      | .ok (mArray, _) => store ⟨mArray, Int64.ofNat pos⟩ d (UInt64.ofNat d.length) := by
  have hyes : Int64.ofNat ba.size ≤ Int64.ofNat pos := by
    rw [ofNat_le_ofNat (by have := ba.size_lt; omega) hpos]
    exact hle
  simp only [write, ofNat_length_ne_zero hd hlen, if_false, hyes, if_true,
    Int64.toUInt64_ofNat', UInt64.ofNat_add]

/-- Room is made if an `int` can count the bytes. -/
theorem obeysFile_of_room {ba : QByteArray} {pos : ℕ} {memory : ℕ → UInt8} {d : List UInt8}
    (hd : d ≠ []) (hle : ba.size ≤ pos) (hint : pos + d.length < 2 ^ 31) :
    ObeysFile ⟨ba, Int64.ofNat pos⟩ memory d := by
  have hpos : (Int64.ofNat pos).toInt = pos := Int64.toInt_ofNat_of_lt (by omega)
  obtain ⟨ba', hroom, hbytes⟩ := resizeAndInit_of_lt memory (by omega : ba.size ≤ _) hint
  have hsize : ba'.size = pos + d.length := by
    simp only [QByteArray.size] at hle ⊢
    rw [hbytes, List.length_append, List.length_replicate, QByteArray.size]
    omega
  obtain ⟨r, p', hstore, hret, hoff, hover⟩ := store_inside hd hsize.ge
  refine ⟨r, p', ?_, .inl ⟨hret, by rw [hoff, hpos], ?_⟩⟩
  · rw [write_of_le memory (by omega) hd (by omega) hle, hroom]
    exact hstore
  · rw [hover, hbytes, hpos, Int.toNat_natCast]
    exact overlay_padded hle

/-- If the number turns into the size of the array, the write fails, and nothing is changed. -/
theorem obeysFile_of_sizeAsInt {ba : QByteArray} {pos : ℕ} {memory : ℕ → UInt8} {d : List UInt8}
    (hpos : pos < 2 ^ 63) (hd : d ≠ []) (hlen : d.length < 2 ^ 64) (hle : ba.size ≤ pos)
    (hsame : QByteArray.sizeAsInt (pos + d.length) = ba.size) :
    ObeysFile ⟨ba, Int64.ofNat pos⟩ memory d := by
  obtain ⟨ok, hroom⟩ := resizeAndInit_of_le.2 hsame
  refine ⟨⟨-1, Error.setSystemError .eio⟩, _, ?_, .inr ⟨rfl, rfl⟩⟩
  rw [write_of_le memory hpos hd hlen hle, hroom]
  exact store_at_end hpos hle _ _

/-- Else the array is cut or grows, and then the write fails. -/
theorem not_obeysFile_of_le {ba : QByteArray} {pos : ℕ} {memory : ℕ → UInt8} {d : List UInt8}
    (hpos : pos < 2 ^ 63) (hd : d ≠ []) (hlen : d.length < 2 ^ 64) (hle : ba.size ≤ pos)
    (hint : ¬ pos + d.length < 2 ^ 31)
    (hsame : ¬ QByteArray.sizeAsInt (pos + d.length) = ba.size) :
    ¬ ObeysFile ⟨ba, Int64.ofNat pos⟩ memory d := by
  rintro ⟨r, p', hw, hlaw⟩
  rw [write_of_le memory hpos hd hlen hle] at hw
  rcases hroom : resizeAndInit ba memory (UInt64.ofNat (pos + d.length)) with f | ⟨ba', ok⟩
  · simp only [hroom, reduceCtorEq] at hw
  · simp only [hroom] at hw
    have hsize := resizeAndInit_of_le.1 ba' ok hroom
    by_cases hm : ba'.size ≤ pos
    · rw [store_at_end hpos hm] at hw
      obtain ⟨rfl, rfl⟩ := Prod.mk.inj (Except.ok.inj hw)
      rcases hlaw with ⟨hret, _⟩ | ⟨_, heq⟩
      · have hneg : ((-1 : Int64).toInt) = -1 := by decide
        rw [hneg] at hret
        omega
      · rw [QByteArrayDataProvider.mk.injEq] at heq
        exact hsame (by rw [← hsize, heq.1])
    · have := ba'.size_lt
      have hdpos : 0 < d.length := List.length_pos_iff.mpr hd
      rw [store_across (by omega) hlen (by omega)] at hw
      cases hw

/-- A write at the end or beyond it obeys the law exactly when an `int` can count the
bytes, or when the number turns into the size of the array as it is converted. -/
theorem obeysFile_iff_of_le {ba : QByteArray} {pos : ℕ} {memory : ℕ → UInt8} {d : List UInt8}
    (hpos : pos < 2 ^ 63) (hd : d ≠ []) (hlen : d.length < 2 ^ 64) (hle : ba.size ≤ pos) :
    ObeysFile ⟨ba, Int64.ofNat pos⟩ memory d ↔
      pos + d.length < 2 ^ 31 ∨ QByteArray.sizeAsInt (pos + d.length) = ba.size := by
  by_cases hint : pos + d.length < 2 ^ 31
  · exact iff_of_true (obeysFile_of_room hd hle hint) (.inl hint)
  by_cases hsame : QByteArray.sizeAsInt (pos + d.length) = ba.size
  · exact iff_of_true (obeysFile_of_sizeAsInt hpos hd hlen hle hsame) (.inr hsame)
  · exact iff_of_false (not_obeysFile_of_le hpos hd hlen hle hint hsame)
      (not_or_intro hint hsame)

/-- **When a write does what a write to a file does.**  From a position inside the array,
exactly when it also ends there; from a position at the end or beyond, exactly when the
new size is an `int`, or when it turns into the size of the array as it is converted to
one. -/
theorem obeysFile_iff (p : QByteArrayDataProvider) (memory : ℕ → UInt8) (d : List UInt8)
    (hpos : 0 ≤ p.mOff) (hd : d ≠ []) (hlen : d.length < 2 ^ 64) :
    ObeysFile p memory d ↔
      (p.mOff.toInt < p.mArray.size ∧ p.mOff.toInt + d.length ≤ p.mArray.size) ∨
      (p.mArray.size ≤ p.mOff.toInt ∧ (p.mOff.toInt + d.length < 2 ^ 31 ∨
        QByteArray.sizeAsInt (p.mOff.toInt.toNat + d.length) = p.mArray.size)) := by
  obtain ⟨ba, off⟩ := p
  obtain ⟨hoff, hlt⟩ := ofNat_toInt hpos
  obtain ⟨pos, hpos⟩ : ∃ pos, off.toInt.toNat = pos := ⟨_, rfl⟩
  simp only [hpos] at hoff hlt
  subst hoff
  have hint : (Int64.ofNat pos).toInt = pos := Int64.toInt_ofNat_of_lt hlt
  simp only [hint, Int.toNat_natCast]
  rcases Nat.lt_or_ge pos ba.size with hin | hout
  · rw [obeysFile_iff_of_lt hlt hd hlen hin]
    omega
  · rw [obeysFile_iff_of_le hlt hd hlen hout]
    omega

end Store

/-- Three bytes, with the position on the second. -/
def threeBytes : QByteArrayDataProvider := ⟨⟨[97, 98, 99], by decide⟩, 1⟩

theorem obeysFile_inside :
    letI := LibGpgError.documented
    ObeysFile threeBytes (fun _ => 0) [120, 121] ↔
      (threeBytes.mOff.toInt < threeBytes.mArray.size ∧
        threeBytes.mOff.toInt + [120, 121].length ≤ threeBytes.mArray.size) ∨
      (threeBytes.mArray.size ≤ threeBytes.mOff.toInt ∧
        (threeBytes.mOff.toInt + [120, 121].length < 2 ^ 31 ∨
        QByteArray.sizeAsInt (threeBytes.mOff.toInt.toNat + [120, 121].length) =
          threeBytes.mArray.size)) :=
  letI := LibGpgError.documented
  obeysFile_iff threeBytes _ _ (by decide) (by decide) (by decide)

/-- A write that runs past the end: three bytes written over the last two. -/
theorem not_obeysFile_across :
    letI := LibGpgError.documented
    ¬ ∀ (p : QByteArrayDataProvider) (memory : ℕ → UInt8) (d : List UInt8),
      0 ≤ p.mOff → d ≠ [] → d.length < 2 ^ 64 → ObeysFile p memory d := by
  let := LibGpgError.documented
  intro h
  obtain ⟨r, p', hw, _⟩ := h threeBytes (fun _ => 0) [120, 121, 122] (by decide) (by decide)
    (by decide)
  have hfault : threeBytes.write (fun _ => 0) (some [120, 121, 122])
      (UInt64.ofNat [120, 121, 122].length) = .error .assertionFailed := by rfl
  cases hfault.symm.trans hw

end QByteArrayDataProvider

end Gpgmepp
