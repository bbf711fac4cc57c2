import Gpgmepp.DataProvider

/-!
# Data made of a provider

`Data(DataProvider *)` makes a data object of gpgme whose callbacks call the provider.  If gpgme
takes flags, the constructor also gives it the size of the data as a hint, which it finds out by
a seek to the end and a seek to the start.

So the provider ends up at the start, wherever it was before.  The constructor leaves the
position alone only if that is the start already, or if gpgme makes no data object:
`keepsPosition_iff`.

gpgme is a parameter, `GpgmeData`.

## Main definitions

* `GpgmeData` — how gpgme seeks in data that is made of callbacks.
* `dataSeekCallback`, `Data.seek`, `Data.ofProvider` — the functions of the sources.
* `KeepsPosition` — what the constructor should leave of a provider.
-/

namespace Gpgmepp

/-- `gpgme_data_seek`, for data objects with a seek callback.  There is none if the callback, or
the object, is a null pointer; else it is called with `hook`, which is what the program
registered with it. -/
class GpgmeData where
  dataSeek : {τ ε : Type} → Option (τ → Int64 → Whence → Except ε (IoResult × τ)) → (hook : τ) →
    Int64 → Whence → Except ε (IoResult × τ)
  dataSeek_callback : ∀ {τ ε : Type} (callback : τ → Int64 → Whence → Except ε (IoResult × τ)) hook
    offset whence, dataSeek (some callback) hook offset whence = callback hook offset whence
  dataSeek_none : ∀ {τ ε : Type} (hook : τ) offset whence,
    ∃ r, dataSeek (ε := ε) none hook offset whence = .ok (r, hook)

/-- gpgme as it is documented, to evaluate instances with. -/
abbrev GpgmeData.documented : GpgmeData where
  dataSeek callback hook offset whence :=
    match callback with
    | some callback => callback hook offset whence
    | none => .ok (⟨-1, 22⟩, hook)
  dataSeek_callback _ _ _ _ := rfl
  dataSeek_none _ _ _ := ⟨_, rfl⟩

/-- The members of `gpgme_data_cbs` that are not null. -/
structure DataCbs where
  read : Bool
  write : Bool
  seek : Bool
  release : Bool

/-- `Data::Private`, and the hint that gpgme was given. -/
structure Data.Private where
  /-- Whether `data` is not null. -/
  data : Bool
  cbs : DataCbs
  sizeHint : Option Int64

section Provider
variable [LibGpgError] {σ ε : Type} (P : DataProvider σ ε)

/-- `data_seek_callback`. -/
def dataSeekCallback (provider : Option σ) (offset : Int64) (whence : Whence) :
    Except ε (IoResult × Option σ) :=
  match provider with
  | none => .ok (⟨-1, Error.setSystemError .einval⟩, none)
  | some s =>
      match whence with
      | .other _ => .ok (⟨-1, Error.setSystemError .einval⟩, some s)
      | whence => (P.seek s offset whence).map fun (r, s) => (r, some s)

namespace Data
variable [GpgmeData]

/-- `Data::seek`. -/
def seek (d : Private) (provider : Option σ) (offset : Int64) (whence : Whence) :
    Except ε (IoResult × Option σ) :=
  GpgmeData.dataSeek (if d.data && d.cbs.seek then some (dataSeekCallback P) else none) provider
    offset whence

/-- What the constructor makes before it seeks, with what `gpgme_data_new_from_cbs` returns. -/
def newFromCbs (e : UInt32) (s : σ) : Private where
  data := e = 0
  cbs :=
    { read := P.isSupported s .read
      write := P.isSupported s .write
      seek := P.isSupported s .seek
      release := P.isSupported s .release }
  sizeHint := none

/-- `Data(DataProvider *)`, with what `gpgme_data_new_from_cbs` returns, in a build with or
without `gpgme_data_set_flag`. -/
def ofProvider (dataSetFlag : Bool) (e : UInt32) (dp : Option σ) :
    Except ε (Private × Option σ) :=
  match dp with
  | none => .ok (⟨false, ⟨true, true, true, true⟩, none⟩, none)
  | some s =>
      let d := newFromCbs P e s
      if dataSetFlag && P.isSupported s .seek then
        match seek P d (some s) 0 .seekEnd with
        | .error f => .error f
        | .ok (size, dp) =>
            match seek P d dp 0 .seekSet with
            | .error f => .error f
            | .ok (_, dp) => .ok ({ d with sizeHint := some size.ret }, dp)
      else .ok (d, some s)

end Data

/-! ## The position -/

variable {P} (F : FileLike P)

/-- What the constructor should leave of a provider in state `s`: its position, and its data, so
that later reads and writes are those that they would be without a hint. -/
def KeepsPosition [GpgmeData] (e : UInt32) (s : σ) : Prop :=
  ∃ d s', Data.ofProvider P true e (some s) = .ok (d, some s') ∧
    F.pos s' = F.pos s ∧ F.bytes s' = F.bytes s

/-- A seek without an offset, by way of gpgme and the callback. -/
theorem Data.seek_zero [GpgmeData] (whence : Whence) {d : Private} {s : σ} {b : ℤ}
    (hd : (d.data && d.cbs.seek) = true) (h0 : 0 ≤ F.pos s) (hle : F.pos s ≤ (F.bytes s).length)
    (hbase : whence.base (F.bytes s).length (F.pos s) = some b) (hb : 0 ≤ b)
    (hb' : b ≤ (F.bytes s).length) :
    ∃ r s', Data.seek P d (some s) 0 whence = .ok (r, some s') ∧ r.ret.toInt = b ∧
      F.pos s' = b ∧ F.bytes s' = F.bytes s := by
  have hzero : (0 : Int64).toInt = 0 := rfl
  obtain ⟨r, s', hseek, hret, hpos, hbytes⟩ :=
    F.seek_eq s 0 whence b h0 hle hbase (by omega) (by omega)
  rw [hzero, Int.add_zero] at hret hpos
  refine ⟨r, s', ?_, hret, hpos, hbytes⟩
  rw [Data.seek, if_pos hd, GpgmeData.dataSeek_callback]
  cases whence with
  | other n => cases hbase
  | _ => simp only [dataSeekCallback, hseek, Except.map]

variable [GpgmeData] {e : UInt32} {s : σ}

/-- With a data object, the hint is the size of the data, and the provider is at the start. -/
theorem Data.ofProvider_made (hseek : P.isSupported s .seek = true) (he : e = 0)
    (h0 : 0 ≤ F.pos s) (hle : F.pos s ≤ (F.bytes s).length) :
    ∃ d s' size, Data.ofProvider P true e (some s) = .ok (d, some s') ∧ d.sizeHint = some size ∧
      size.toInt = (F.bytes s).length ∧ F.pos s' = 0 ∧ F.bytes s' = F.bytes s := by
  have hd : ((newFromCbs P e s).data && (newFromCbs P e s).cbs.seek) = true := by
    simp [newFromCbs, he, hseek]
  obtain ⟨size, s₁, hend, hret, hpos, hbytes⟩ :=
    Data.seek_zero F .seekEnd hd h0 hle rfl (Int.natCast_nonneg _) (Int.le_refl _)
  have h0' : 0 ≤ F.pos s₁ := by omega
  have hle' : F.pos s₁ ≤ (F.bytes s₁).length := by rw [hbytes, hpos]
  obtain ⟨r, s₂, hset, -, hpos', hbytes'⟩ :=
    Data.seek_zero F .seekSet hd h0' hle' rfl (Int.le_refl _) (Int.natCast_nonneg _)
  refine ⟨{ newFromCbs P e s with sizeHint := some size.ret }, s₂, size.ret, ?_, rfl, hret, hpos',
    hbytes'.trans hbytes⟩
  simp only [ofProvider, hseek, Bool.and_self, if_true, hend, hset]

/-- Without a data object, nothing is called. -/
theorem Data.ofProvider_failed (he : e ≠ 0) :
    ∃ d, Data.ofProvider P true e (some s) = .ok (d, some s) := by
  have hnone : ∀ whence, ∃ r, Data.seek P (newFromCbs P e s) (some s) 0 whence =
      .ok (r, some s) := by
    intro whence
    rw [Data.seek, if_neg (by simp [newFromCbs, he])]
    exact GpgmeData.dataSeek_none (some s) 0 whence
  obtain ⟨r, hend⟩ := hnone .seekEnd
  obtain ⟨r', hset⟩ := hnone .seekSet
  simp only [ofProvider, hend, hset]
  split
  · exact ⟨_, rfl⟩
  · exact ⟨_, rfl⟩

/-- **When the constructor leaves the position of a provider alone**: exactly if that is the
start, or if gpgme makes no data object. -/
theorem keepsPosition_iff (hseek : P.isSupported s .seek = true) (h0 : 0 ≤ F.pos s)
    (hle : F.pos s ≤ (F.bytes s).length) :
    KeepsPosition F e s ↔ F.pos s = 0 ∨ e ≠ 0 := by
  by_cases he : e = 0
  · obtain ⟨d, s', size, hmade, -, -, hpos, hbytes⟩ := Data.ofProvider_made F hseek he h0 hle
    constructor
    · rintro ⟨d₁, s₁, h, hpos₁, -⟩
      rw [hmade, Except.ok.injEq, Prod.mk.injEq, Option.some.injEq] at h
      exact .inl (by rw [← hpos₁, ← h.2, hpos])
    · rintro (hstart | hne)
      · exact ⟨d, s', hmade, hpos.trans hstart.symm, hbytes⟩
      · exact absurd he hne
  · obtain ⟨d, hfailed⟩ := Data.ofProvider_failed (P := P) (s := s) he
    exact iff_of_true ⟨d, s, hfailed, rfl, rfl⟩ (.inr he)

end Provider

/-- The constructor, with a `QByteArrayDataProvider` of three bytes that is at the second. -/
theorem keepsPosition_threeBytes :
    letI := LibGpgError.documented
    letI := GpgmeData.documented
    KeepsPosition QByteArrayDataProvider.fileLike 0 QByteArrayDataProvider.threeBytes ↔
      QByteArrayDataProvider.fileLike.pos QByteArrayDataProvider.threeBytes = 0 ∨
        (0 : UInt32) ≠ 0 :=
  letI := LibGpgError.documented
  letI := GpgmeData.documented
  keepsPosition_iff QByteArrayDataProvider.fileLike rfl (by decide) (by decide)

/-- The position is lost. -/
theorem not_keepsPosition_threeBytes :
    letI := LibGpgError.documented
    letI := GpgmeData.documented
    ¬ ∀ (σ ε : Type) (P : DataProvider σ ε) (F : FileLike P) (e : UInt32) (s : σ),
      P.isSupported s .seek = true → 0 ≤ F.pos s → F.pos s ≤ (F.bytes s).length →
        KeepsPosition F e s := by
  let := LibGpgError.documented
  let := GpgmeData.documented
  intro h
  obtain ⟨d, s', hmade, hpos, -⟩ := h _ _ _ QByteArrayDataProvider.fileLike 0
    QByteArrayDataProvider.threeBytes rfl (by decide) (by decide)
  have hrun : Data.ofProvider QByteArrayDataProvider.provider true 0
      (some QByteArrayDataProvider.threeBytes) =
      .ok (⟨true, ⟨true, true, true, true⟩, some 3⟩,
        some { QByteArrayDataProvider.threeBytes with mOff := 0 }) := rfl
  rw [hrun, Except.ok.injEq, Prod.mk.injEq, Option.some.injEq] at hmade
  rw [← hmade.2] at hpos
  exact absurd hpos (by decide)

end Gpgmepp
