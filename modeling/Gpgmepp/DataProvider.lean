import Gpgmepp.DataProvider.Seek

/-!
# Data providers

A `DataProvider` is an interface: a program hands gpgme a provider of its own, or one of the two
of QGpgME.  What counts here is how a provider seeks.

A provider is file-like if every seek to a place from the start of its data to the end takes it
there and changes nothing else.  `QByteArrayDataProvider` is, and so is `QIODeviceDataProvider`
if its device is.

## Main definitions

* `DataProvider` — the virtual functions.
* `FileLike` — the providers that seek as a file does.
* `QByteArrayDataProvider.fileLike`, `QIODeviceDataProvider.fileLike` — those of QGpgME.
-/

namespace Gpgmepp

/-- `DataProvider::Operation`. -/
inductive DataProvider.Operation | read | write | seek | release
  deriving DecidableEq

/-- The virtual functions of `DataProvider` that do not transfer data, of providers with a state
in `σ`.  A call may end the program. -/
structure DataProvider (σ ε : Type) where
  isSupported : σ → DataProvider.Operation → Bool
  seek : σ → Int64 → Whence → Except ε (IoResult × σ)

/-- The place that an offset counts from. -/
def Whence.base (size pos : ℤ) : Whence → Option ℤ
  | .seekSet => some 0
  | .seekCur => some pos
  | .seekEnd => some size
  | .other _ => none

/-- A provider that seeks as a file does, with its data and its position. -/
structure FileLike {σ ε : Type} (P : DataProvider σ ε) where
  bytes : σ → List UInt8
  pos : σ → ℤ
  /-- An `off_t` can hold the size. -/
  length_lt : ∀ s, (bytes s).length < 2 ^ 63
  /-- Seeks within the data succeed. -/
  seek_eq : ∀ s offset whence (b : ℤ), 0 ≤ pos s → pos s ≤ (bytes s).length →
    whence.base (bytes s).length (pos s) = some b → 0 ≤ b + offset.toInt →
    b + offset.toInt ≤ (bytes s).length →
    ∃ r s', P.seek s offset whence = .ok (r, s') ∧ r.ret.toInt = b + offset.toInt ∧
      pos s' = b + offset.toInt ∧ bytes s' = bytes s

namespace QByteArrayDataProvider
variable [LibGpgError]

/-- `QByteArrayDataProvider` as a provider. -/
def provider : DataProvider QByteArrayDataProvider Trap where
  isSupported _ _ := true
  seek := seek

/-- A seek of one of the three kinds returns the new position. -/
theorem ret_seek {p p' : QByteArrayDataProvider} {offset : Int64} {whence : Whence} {r : IoResult}
    {b : ℤ} (hbase : p.base whence = some b) (h : p.seek offset whence = .ok (r, p')) :
    r.ret = p'.mOff := by
  have hmove : ∀ n : Int32, p.moveTo n = (r, p') → r.ret = p'.mOff := by
    rintro n ⟨⟩
    rfl
  cases whence with
  | seekSet => exact hmove _ (Except.ok.inj h)
  | seekCur =>
      simp only [seek] at h
      split at h
      · cases h
      · exact hmove _ (Except.ok.inj h)
  | seekEnd =>
      simp only [seek] at h
      split at h
      · cases h
      · exact hmove _ (Except.ok.inj h)
  | other n => cases hbase

/-- A `QByteArrayDataProvider` seeks as a file does. -/
def fileLike : FileLike provider where
  bytes p := p.mArray.bytes
  pos p := p.mOff.toInt
  length_lt p := by
    have := p.mArray.length_lt
    omega
  seek_eq := by
    intro p offset whence b h0 _ hbase hlo hhi
    have hsize := p.mArray.length_lt
    have hbase' : p.base whence = some b := by
      rw [← hbase]
      cases whence <;> rfl
    have hplace : Seekable p offset whence := by
      intro b' hb'
      obtain rfl := Option.some.inj (hbase'.symm.trans hb')
      omega
    obtain ⟨r, p', hseek, hlaw⟩ := (obeysSeek_iff p (nonneg_iff_toInt.mpr h0) _ _).mpr hplace
    rcases hlaw with ⟨b', hb', _, hret, hoff, harray⟩ | ⟨hret, hp⟩
    · obtain rfl := Option.some.inj (hbase'.symm.trans hb')
      exact ⟨r, p', hseek, hret, hoff, by rw [harray]⟩
    · -- the position would be `-1`
      have hneg : p.mOff = -1 := by rw [← hret, ret_seek hbase' hseek, hp]
      rw [hneg] at h0
      exact absurd h0 (by decide)

end QByteArrayDataProvider

/-! ## Devices -/

/-- `QProcess::ProcessChannel`. -/
inductive ProcessChannel | standardOutput | standardError
  deriving DecidableEq

/-- The functions of `QIODevice` that do not transfer data, of devices with a state in `δ`. -/
structure QIODevice (δ : Type) where
  isReadable : δ → Bool
  isWritable : δ → Bool
  isSequential : δ → Bool
  /-- `QProcess::readChannel`, if the device is a `QProcess`. -/
  readChannel : δ → Option ProcessChannel
  pos : δ → Int64
  size : δ → Int64
  seek : δ → Int64 → Bool × δ

/-- A device of random access: `seek` takes it to each place from the start of its data to the
end. -/
structure QIODevice.RandomAccess {δ : Type} (Q : QIODevice δ) where
  bytes : δ → List UInt8
  not_isSequential : ∀ io, Q.isSequential io = false
  toInt_size : ∀ io, (Q.size io).toInt = (bytes io).length
  seek_eq : ∀ io (n : Int64), 0 ≤ n.toInt → n.toInt ≤ (bytes io).length →
    (Q.seek io n).1 = true ∧ Q.pos (Q.seek io n).2 = n ∧ bytes (Q.seek io n).2 = bytes io

namespace QIODeviceDataProvider
variable [LibGpgError] {δ : Type} (Q : QIODevice δ)

/-- `QIODeviceDataProvider::isSupported`. -/
def isSupported (io : δ) : DataProvider.Operation → Bool
  | .read => Q.isReadable io && (Q.readChannel io).all (· == .standardOutput)
  | .write => Q.isWritable io
  | .seek => !Q.isSequential io
  | .release => true

/-- The end of `seek`. -/
def seekTo (io : δ) (newOffset : Int64) : IoResult × δ :=
  if (Q.seek io newOffset).1 then (⟨newOffset, 0⟩, (Q.seek io newOffset).2)
  else (⟨-1, Error.setSystemError .einval⟩, (Q.seek io newOffset).2)

/-- `QIODeviceDataProvider::seek`. -/
def seek (io : δ) (offset : Int64) (whence : Whence) : Except Trap (IoResult × δ) :=
  if Q.isSequential io then .ok (⟨-1, Error.setSystemError .espipe⟩, io)
  else
    match whence with
    | .seekSet => .ok (seekTo Q io offset)
    | .seekCur => (offT ((Q.pos io).toInt + offset.toInt)).map (seekTo Q io)
    | .seekEnd => (offT ((Q.size io).toInt + offset.toInt)).map (seekTo Q io)
    | .other _ => .ok (⟨-1, Error.setSystemError .einval⟩, io)

/-- `QIODeviceDataProvider` as a provider. -/
def provider : DataProvider δ Trap where
  isSupported := isSupported Q
  seek := seek Q

/-- A `QIODeviceDataProvider` of a device of random access seeks as a file does. -/
def fileLike (R : Q.RandomAccess) : FileLike (provider Q) where
  bytes := R.bytes
  pos io := (Q.pos io).toInt
  length_lt io := by
    have hsize := R.toInt_size io
    have := (Q.size io).toInt_lt
    omega
  seek_eq := by
    intro io offset whence b h0 hle hbase hlo hhi
    have hsize := R.toInt_size io
    have hlt := (Q.size io).toInt_lt
    obtain ⟨hoffT, hn⟩ := offT_of_range (x := b + offset.toInt) (by omega) (by omega)
    have hseek : seek Q io offset whence =
        .ok (seekTo Q io (Int64.ofInt (b + offset.toInt))) := by
      cases whence with
      | seekSet =>
          obtain rfl := Option.some.inj hbase
          simp [seek, R.not_isSequential]
      | seekCur =>
          obtain rfl := Option.some.inj hbase
          simp [seek, R.not_isSequential, hoffT, Except.map]
      | seekEnd =>
          obtain rfl := Option.some.inj hbase
          rw [← hsize] at hoffT ⊢
          simp [seek, R.not_isSequential, hoffT, Except.map]
      | other n => cases hbase
    obtain ⟨hok, hpos, hbytes⟩ := R.seek_eq io (Int64.ofInt (b + offset.toInt)) (by omega) (by omega)
    rw [seekTo, if_pos hok] at hseek
    exact ⟨_, _, hseek, hn, by rw [hpos, hn], hbytes⟩

end QIODeviceDataProvider

end Gpgmepp
