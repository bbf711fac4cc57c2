import Gpgmepp.Data
import Gpgmepp.Lib.File

/-!
# A `QByteArrayDataProvider` is a file

gpgme reads, writes and seeks in its data by way of four callbacks, which call the provider.  The
answers should be those of a file that is kept in memory.  They are, in every run, as long as no
write goes across the end of the data, none makes them longer than an `int` can count, and each
seek is to a place that a non-negative `int` can hold; and they are not from the first request on
that is none of these: `answersAsFile_iff`.

So whatever is written to an empty provider can be read back, in pieces of any sizes:
`written_read`.

## Main definitions

* `TransferProvider`, `dataReadCallback`, `dataWriteCallback`, `dataReleaseCallback` — providers
  with all virtual functions, and the callbacks.
* `Request`, `dataCallback` — what gpgme asks for.
* `Reply`, `answer` — a file that answers.
* `Fits` — the requests that are answered as by a file.
-/

namespace Gpgmepp

open StateMachine Files Overlay

/-! ## The callbacks -/

/-- A provider with all virtual functions of `DataProvider`. -/
structure TransferProvider (σ ε : Type) extends DataProvider σ ε where
  read : σ → Bool → UInt64 → Except ε ((IoResult × List UInt8) × σ)
  /-- A write brings what the memory holds that is made room in. -/
  write : σ → (ℕ → UInt8) → Option (List UInt8) → UInt64 → Except ε (IoResult × σ)
  release : σ → σ

/-- A buffer that is written from; a `size_t` can hold its size. -/
structure Buffer where
  bytes : List UInt8
  length_lt : bytes.length < 2 ^ 64

/-- A call of one of the callbacks.  A buffer that is written from has as many bytes as stated. -/
inductive Request
  | read (buf : Bool) (buflen : UInt64)
  | write (memory : ℕ → UInt8) (buf : Buffer)
  | writeNull (memory : ℕ → UInt8) (buflen : UInt64)
  | seek (offset : Int64) (whence : Whence)
  | release

section Callbacks
variable [LibGpgError] {σ ε : Type} (P : TransferProvider σ ε)

/-- `data_read_callback`. -/
def dataReadCallback (provider : Option σ) (buf : Bool) (buflen : UInt64) :
    Except ε ((IoResult × List UInt8) × Option σ) :=
  match provider with
  | none => .ok ((⟨-1, Error.setSystemError .einval⟩, []), none)
  | some s => (P.read s buf buflen).map fun (r, s) => (r, some s)

/-- `data_write_callback`. -/
def dataWriteCallback (provider : Option σ) (memory : ℕ → UInt8) (buf : Option (List UInt8))
    (buflen : UInt64) : Except ε (IoResult × Option σ) :=
  match provider with
  | none => .ok (⟨-1, Error.setSystemError .einval⟩, none)
  | some s => (P.write s memory buf buflen).map fun (r, s) => (r, some s)

omit [LibGpgError] in
/-- `data_release_callback`. -/
def dataReleaseCallback (provider : Option σ) : Option σ := provider.map P.release

/-- The callbacks, as a machine. -/
def dataCallback (provider : Option σ) :
    Request → Except ε ((IoResult × List UInt8) × Option σ)
  | .read buf buflen => dataReadCallback P provider buf buflen
  | .write memory buf =>
      (dataWriteCallback P provider memory (some buf.bytes) (UInt64.ofNat buf.bytes.length)).map
        fun (r, s) => ((r, []), s)
  | .writeNull memory buflen =>
      (dataWriteCallback P provider memory none buflen).map fun (r, s) => ((r, []), s)
  | .seek offset whence =>
      (dataSeekCallback P.toDataProvider provider offset whence).map fun (r, s) => ((r, []), s)
  | .release => .ok ((⟨0, 0⟩, []), dataReleaseCallback P provider)

end Callbacks

namespace QByteArrayDataProvider
variable [LibGpgError]

/-- `QByteArrayDataProvider::release`. -/
def release (p : QByteArrayDataProvider) : QByteArrayDataProvider :=
  { p with mArray := ⟨[], by decide⟩ }

/-- `QByteArrayDataProvider`, with all its functions. -/
def transferProvider : TransferProvider QByteArrayDataProvider Trap where
  toDataProvider := provider
  read := read
  write p memory buffer bufSize :=
    match p.write memory buffer bufSize with
    | .error f => .error (.fault f)
    | .ok r => .ok r
  release := release

/-! ## The file -/

/-- What a file answers: a number, `errno` if it is set, and what was read. -/
structure Reply where
  ret : ℤ
  errno : ℕ
  bytes : List UInt8

/-- A file in memory answers a request. -/
def answer (f : File UInt8) : Request → Except Empty (Reply × File UInt8)
  | .read buf buflen =>
      if buflen = 0 then .ok (⟨0, 0, []⟩, f)
      else if buf = false then .ok (⟨-1, Error.setSystemError .einval, []⟩, f)
      else .ok (⟨(f.read buflen.toNat).1.length, 0, (f.read buflen.toNat).1⟩,
        (f.read buflen.toNat).2)
  | .write _ buf =>
      if buf.bytes = [] then .ok (⟨0, 0, []⟩, f)
      else .ok (⟨buf.bytes.length, 0, []⟩, f.write 0 buf.bytes)
  | .writeNull _ buflen =>
      if buflen = 0 then .ok (⟨0, 0, []⟩, f)
      else .ok (⟨-1, Error.setSystemError .einval, []⟩, f)
  | .seek offset whence =>
      match whence.base f.content.length f.pos with
      | none => .ok (⟨-1, Error.setSystemError .einval, []⟩, f)
      | some b =>
          if b + offset.toInt < 0 then .ok (⟨-1, Error.setSystemError .einval, []⟩, f)
          else .ok (⟨b + offset.toInt, 0, []⟩, { f with pos := (b + offset.toInt).toNat })
  | .release => .ok (⟨0, 0, []⟩, { f with content := [] })

/-- The requests that are answered as by a file.  A write from inside the data ends there; one
from the end or beyond, and a seek, are to places that an `int` can hold. -/
def Fits (f : File UInt8) : Request → Prop
  | .write _ buf => buf.bytes = [] ∨
      if f.pos < f.content.length then f.pos + buf.bytes.length ≤ f.content.length
      else f.pos + buf.bytes.length < 2 ^ 31
  | .seek offset whence => ∀ b, whence.base f.content.length f.pos = some b →
      0 ≤ b + offset.toInt ∧ b + offset.toInt < 2 ^ 31
  | .read _ _ | .writeNull _ _ | .release => True

/-- A provider with the content and the position of a file. -/
def Holds (f : File UInt8) (p : Option QByteArrayDataProvider) : Prop :=
  ∃ q, p = some q ∧ q.mArray.bytes = f.content ∧ q.mOff.toInt = f.pos

/-- The same answer. -/
def Answers (o : Reply) (r : IoResult × List UInt8) : Prop :=
  r.1.ret.toInt = o.ret ∧ r.1.errno = o.errno ∧ r.2 = o.bytes

/-! ## One request -/

section Requests
variable {f : File UInt8} {p : QByteArrayDataProvider}

omit [LibGpgError] in
theorem holds_some : Holds f (some p) ↔ p.mArray.bytes = f.content ∧ p.mOff.toInt = f.pos := by
  simp [Holds]

omit [LibGpgError] in
theorem nonneg_of_holds (h : Holds f (some p)) : 0 ≤ p.mOff := by
  have hoff := (holds_some.mp h).2
  exact nonneg_iff_toInt.mpr (by omega)

omit [LibGpgError] in
/-- The provider is known by what it holds. -/
theorem eq_of_holds {q : QByteArrayDataProvider} (h : Holds f (some p)) (h' : Holds f (some q)) :
    p = q := by
  obtain ⟨hbytes, hoff⟩ := holds_some.mp h
  obtain ⟨hbytes', hoff'⟩ := holds_some.mp h'
  rw [QByteArrayDataProvider.mk.injEq]
  exact ⟨QByteArray.ext_bytes (hbytes.trans hbytes'.symm),
    Int64.toInt_inj.mp (hoff.trans hoff'.symm)⟩

omit [LibGpgError] in
/-- A provider that holds a file, as an array and a number. -/
theorem exists_of_holds (h : Holds f (some p)) :
    ∃ ba pos, p = ⟨ba, Int64.ofNat pos⟩ ∧ f = ⟨ba.bytes, pos⟩ ∧ pos < 2 ^ 63 := by
  obtain ⟨hbytes, hoff⟩ := holds_some.mp h
  obtain ⟨heq, hpos⟩ := ofNat_toInt (nonneg_of_holds h)
  rw [hoff, Int.toNat_natCast] at heq hpos
  exact ⟨p.mArray, f.pos, by rw [← heq], by rw [hbytes], hpos⟩

/-- A read that is carried out does not set `errno`. -/
theorem errno_read {n : UInt64} {r : IoResult} {d : List UInt8} {p' : QByteArrayDataProvider}
    (h : p.read true n = .ok ((r, d), p')) : r.errno = 0 := by
  simp only [read, Bool.true_eq_false, if_false] at h
  split at h
  · cases h
    rfl
  split at h
  · cases h
    rfl
  cases hrest : offT (p.mArray.size - p.mOff.toInt) with
  | error e => simp [hrest] at h
  | ok rest =>
      simp only [hrest] at h
      split at h
      · cases hload : p.mArray.load p.mOff.toInt (min n rest.toUInt64) with
        | error e => simp [hload] at h
        | ok bytes =>
            simp only [hload] at h
            cases h
            rfl
      · cases h

/-- Each read is answered as by a file. -/
theorem answers_read (h : Holds f (some p)) (buf : Bool) (buflen : UInt64) {o : Reply}
    {f' : File UInt8} (hans : answer f (.read buf buflen) = .ok (o, f')) :
    ∃ r s, dataCallback transferProvider (some p) (.read buf buflen) = .ok (r, s) ∧
      Answers o r ∧ Holds f' s := by
  obtain ⟨hbytes, hoff⟩ := holds_some.mp h
  simp only [answer] at hans
  by_cases hn : buflen = 0
  · rw [if_pos hn] at hans
    cases hans
    exact ⟨(⟨0, 0⟩, []), some p, by
      simp [dataCallback, dataReadCallback, transferProvider, read, hn, Except.map],
      ⟨rfl, rfl, rfl⟩, h⟩
  rw [if_neg hn] at hans
  cases buf with
  | false =>
      cases hans
      exact ⟨(⟨-1, Error.setSystemError .einval⟩, []), some p, by
        simp [dataCallback, dataReadCallback, transferProvider, read, hn, Except.map],
        ⟨rfl, rfl, rfl⟩, h⟩
  | true =>
      cases hans
      obtain ⟨r, p', hread, hret, harray, hoff'⟩ := read_eq (nonneg_of_holds h) buflen
      have hunread : p.unread = f.content.drop f.pos := by
        rw [unread, hbytes, hoff, Int.toNat_natCast]
      refine ⟨(r, p.unread.take buflen.toNat), some p', ?_, ⟨?_, errno_read hread, ?_⟩, ?_⟩
      · simp [dataCallback, dataReadCallback, transferProvider, hread, Except.map]
      · rw [hret, hunread]
        rfl
      · rw [hunread]
        rfl
      · rw [holds_some, harray, hoff', hoff, hunread]
        exact ⟨hbytes, by simp [File.read]⟩

/-- A write from inside the data makes no room. -/
theorem write_of_lt {ba : QByteArray} {pos : ℕ} {d : List UInt8} (memory : ℕ → UInt8)
    (hpos : pos < 2 ^ 63) (hd : d ≠ []) (hlen : d.length < 2 ^ 64) (hlt : pos < ba.size) :
    write ⟨ba, Int64.ofNat pos⟩ memory (some d) (UInt64.ofNat d.length) =
      store ⟨ba, Int64.ofNat pos⟩ d (UInt64.ofNat d.length) := by
  have hno : ¬ Int64.ofNat ba.size ≤ Int64.ofNat pos := by
    rw [ofNat_le_ofNat (by have := ba.size_lt; omega) hpos]
    omega
  simp only [write, ofNat_length_ne_zero hd hlen, if_false, hno]

/-- Bytes that are stored do not set `errno`. -/
theorem errno_store {p' : QByteArrayDataProvider} {d : List UInt8} {n : UInt64} {r : IoResult}
    (h : p.store d n = .ok (r, p')) : r.errno = 0 ∨ r.ret = -1 := by
  simp only [store] at h
  split at h
  · cases h
    exact .inr rfl
  split at h
  · cases hcpy : p.mArray.memcpy p.mOff.toInt d n with
    | error e => simp [hcpy] at h
    | ok ba =>
        simp only [hcpy] at h
        cases h
        exact .inl rfl
  · cases h

/-- The answer of a write that stores its bytes in a provider with room for them. -/
theorem store_answers {ba : QByteArray} {pos : ℕ} {d : List UInt8} (hd : d ≠ [])
    (h : pos + d.length ≤ ba.size) :
    ∃ r p', store ⟨ba, Int64.ofNat pos⟩ d (UInt64.ofNat d.length) = .ok (r, p') ∧
      r.ret.toInt = d.length ∧ r.errno = 0 ∧
      Holds ⟨overlay ba.bytes pos d, pos + d.length⟩ (some p') := by
  obtain ⟨r, p', hstore, hret, hoff, hbytes⟩ := store_inside hd h
  refine ⟨r, p', hstore, hret, ?_, holds_some.mpr ⟨hbytes, by simpa using hoff⟩⟩
  rcases errno_store hstore with herrno | hneg
  · exact herrno
  · rw [hneg] at hret
    have hminus : ((-1 : Int64).toInt) = -1 := by decide
    omega

/-- **A write that fits**: it leaves what a write to the file leaves. -/
theorem write_answers (memory : ℕ → UInt8) {d : List UInt8} (hd : d ≠ [])
    (hlen : d.length < 2 ^ 64) (h : Holds f (some p)) (hfits : Fits f (.write memory ⟨d, hlen⟩)) :
    ∃ r p', p.write memory (some d) (UInt64.ofNat d.length) = .ok (r, p') ∧
      r.ret.toInt = d.length ∧ r.errno = 0 ∧ Holds (f.write 0 d) (some p') := by
  obtain ⟨ba, pos, rfl, rfl, hpos⟩ := exists_of_holds h
  have hroom : if pos < ba.size then pos + d.length ≤ ba.size else pos + d.length < 2 ^ 31 :=
    hfits.resolve_left hd
  by_cases hin : pos < ba.size
  · rw [if_pos hin] at hroom
    obtain ⟨r, p', hstore, hret, herrno, hheld⟩ := store_answers hd hroom
    refine ⟨r, p', (write_of_lt memory hpos hd hlen hin).trans hstore, hret, herrno, ?_⟩
    rwa [File.write, fileWrite_of_le hroom]
  · rw [if_neg hin] at hroom
    have hle : ba.size ≤ pos := by omega
    obtain ⟨ba', hmade, hbytes'⟩ := resizeAndInit_of_lt memory (by omega : ba.size ≤ _) hroom
    have hsize : ba'.size = pos + d.length := by
      simp only [QByteArray.size] at hle ⊢
      rw [hbytes', List.length_append, List.length_replicate, QByteArray.size]
      omega
    obtain ⟨r, p', hstore, hret, herrno, hheld⟩ := store_answers hd hsize.ge
    refine ⟨r, p', ?_, hret, herrno, ?_⟩
    · rw [write_of_le memory (by omega) hd (by omega) hle, hmade]
      exact hstore
    · rw [File.write]
      simp only
      rw [← overlay_padded hle]
      rwa [hbytes'] at hheld

/-- A write that does not fit is not carried out in full. -/
theorem not_write_answers (memory : ℕ → UInt8) {d : List UInt8} (hlen : d.length < 2 ^ 64)
    (h : Holds f (some p)) (hfits : ¬ Fits f (.write memory ⟨d, hlen⟩)) {r : IoResult}
    {p' : QByteArrayDataProvider}
    (hwrite : p.write memory (some d) (UInt64.ofNat d.length) = .ok (r, p')) :
    r.ret.toInt ≠ d.length := by
  obtain ⟨ba, pos, rfl, rfl, hpos⟩ := exists_of_holds h
  have hd : d ≠ [] := fun hd => hfits (.inl hd)
  have hroom : ¬ if pos < ba.size then pos + d.length ≤ ba.size else pos + d.length < 2 ^ 31 :=
    fun hroom => hfits (.inr hroom)
  have hminus : ((-1 : Int64).toInt) = -1 := by decide
  by_cases hin : pos < ba.size
  · -- the assertion fails
    rw [if_pos hin] at hroom
    rw [write_of_lt memory hpos hd hlen hin, store_across hin hlen (by omega)] at hwrite
    cases hwrite
  · rw [if_neg hin] at hroom
    rw [write_of_le memory hpos hd hlen (by omega)] at hwrite
    rcases hmade : resizeAndInit ba memory (UInt64.ofNat (pos + d.length)) with e | ⟨ba', ok⟩
    · simp only [hmade, reduceCtorEq] at hwrite
    · simp only [hmade] at hwrite
      have hsize := ba'.size_lt
      by_cases hend : ba'.size ≤ pos
      · -- no room was made
        rw [store_at_end hpos hend] at hwrite
        cases hwrite
        rw [hminus]
        omega
      · rw [store_across (by omega) hlen (by omega)] at hwrite
        cases hwrite

/-- **A write is answered as by a file** exactly if it fits. -/
theorem answers_write_iff (h : Holds f (some p)) (memory : ℕ → UInt8) (buf : Buffer) {o : Reply}
    {f' : File UInt8} (hans : answer f (.write memory buf) = .ok (o, f')) :
    (∃ r s, dataCallback transferProvider (some p) (.write memory buf) = .ok (r, s) ∧
      Answers o r ∧ Holds f' s) ↔ Fits f (.write memory buf) := by
  obtain ⟨d, hlen⟩ := buf
  have hcallback : ∀ r p', p.write memory (some d) (UInt64.ofNat d.length) = .ok (r, p') →
      dataCallback transferProvider (some p) (.write memory ⟨d, hlen⟩) =
        .ok ((r, []), some p') := by
    intro r p' hwrite
    simp [dataCallback, dataWriteCallback, transferProvider, hwrite, Except.map]
  by_cases hd : d = []
  · subst hd
    cases hans
    refine iff_of_true ⟨(⟨0, 0⟩, []), some p, hcallback ⟨0, 0⟩ p ?_, ⟨rfl, rfl, rfl⟩, h⟩ (.inl rfl)
    simp [write]
  simp only [answer, if_neg hd] at hans
  cases hans
  constructor
  · rintro ⟨r, s, hcalled, ⟨hret, -, -⟩, -⟩
    by_contra hfits
    cases hwrite : p.write memory (some d) (UInt64.ofNat d.length) with
    | error e =>
        simp [dataCallback, dataWriteCallback, transferProvider, hwrite, Except.map] at hcalled
    | ok w =>
        rw [hcallback w.1 w.2 hwrite] at hcalled
        cases hcalled
        exact not_write_answers memory hlen h hfits hwrite hret
  · intro hfits
    obtain ⟨r, p', hwrite, hret, herrno, hheld⟩ := write_answers memory hd hlen h hfits
    exact ⟨(r, []), some p', hcallback r p' hwrite, ⟨hret, herrno, rfl⟩, hheld⟩

omit [LibGpgError] in
/-- The place that an offset counts from is the same for the file. -/
theorem base_of_holds (h : Holds f (some p)) (whence : Whence) :
    p.base whence = whence.base f.content.length f.pos := by
  obtain ⟨hbytes, hoff⟩ := holds_some.mp h
  cases whence with
  | seekCur => simp only [base, Whence.base, hoff]
  | seekEnd => simp only [base, Whence.base, QByteArray.size, hbytes]
  | _ => rfl

/-- A seek that moves the position does not set `errno`. -/
theorem errno_seek {offset : Int64} {whence : Whence} {b : ℤ} {r : IoResult}
    {p' : QByteArrayDataProvider} (hbase : p.base whence = some b)
    (h : p.seek offset whence = .ok (r, p')) : r.errno = 0 := by
  have hmove : ∀ n : Int32, p.moveTo n = (r, p') → r.errno = 0 := by
    rintro n ⟨⟩
    rfl
  cases whence with
  | seekSet => exact hmove _ (Except.ok.inj h)
  | seekCur =>
      simp only [seek] at h
      split at h
      · cases h
      · exact hmove _ (Except.ok.inj h)
  | seekEnd =>
      simp only [seek] at h
      split at h
      · cases h
      · exact hmove _ (Except.ok.inj h)
  | other n => cases hbase

omit [LibGpgError] in
/-- The file after a seek of the provider. -/
theorem holds_seek (h : Holds f (some p)) {offset : Int64} {b : ℤ} {p' : QByteArrayDataProvider}
    (hlo : 0 ≤ b + offset.toInt) (hoff : p'.mOff.toInt = b + offset.toInt)
    (harray : p'.mArray = p.mArray) :
    Holds { f with pos := (b + offset.toInt).toNat } (some p') := by
  rw [holds_some, harray, hoff]
  exact ⟨(holds_some.mp h).1, by simpa using hlo⟩

/-- **A seek is answered as by a file** exactly if it fits. -/
theorem answers_seek_iff (h : Holds f (some p)) (offset : Int64) (whence : Whence) {o : Reply}
    {f' : File UInt8} (hans : answer f (.seek offset whence) = .ok (o, f')) :
    (∃ r s, dataCallback transferProvider (some p) (.seek offset whence) = .ok (r, s) ∧
      Answers o r ∧ Holds f' s) ↔ Fits f (.seek offset whence) := by
  cases hbase : whence.base f.content.length f.pos with
  | none =>
      -- no other kind of seek reaches the provider
      simp only [answer, hbase] at hans
      cases hans
      cases whence with
      | other n =>
          exact iff_of_true ⟨(⟨-1, Error.setSystemError .einval⟩, []), some p, rfl,
            ⟨rfl, rfl, rfl⟩, h⟩ (by simp [Fits, hbase])
      | _ => cases hbase
  | some b =>
      have hbase' : p.base whence = some b := (base_of_holds h whence).trans hbase
      have hfits : Fits f (.seek offset whence) ↔ Seekable p offset whence := by
        simp only [Fits, Seekable, hbase, hbase']
      have hcallback : dataCallback transferProvider (some p) (.seek offset whence) =
          (p.seek offset whence).map fun w => ((w.1, []), some w.2) := by
        cases whence with
        | other n => cases hbase
        | _ =>
            simp only [dataCallback, dataSeekCallback, transferProvider, provider]
            cases p.seek offset _ <;> rfl
      rw [hfits, ← obeysSeek_iff p (nonneg_of_holds h), hcallback]
      simp only [answer, hbase] at hans
      constructor
      · rintro ⟨r, s, hcalled, ⟨hret, -, -⟩, hheld⟩
        cases hseek : p.seek offset whence with
        | error e => simp [hseek, Except.map] at hcalled
        | ok w =>
            simp only [hseek, Except.map, Except.ok.injEq, Prod.mk.injEq] at hcalled
            obtain ⟨rfl, rfl⟩ := hcalled
            refine ⟨w.1, w.2, hseek, ?_⟩
            split at hans
            · cases hans
              right
              exact ⟨Int64.toInt_inj.mp hret, eq_of_holds hheld h⟩
            · next hlo =>
                cases hans
                left
                obtain ⟨hbytes, hoff⟩ := holds_some.mp hheld
                refine ⟨b, hbase', by omega, hret, ?_, ?_⟩
                · simp only at hoff
                  omega
                · exact QByteArray.ext_bytes (hbytes.trans (holds_some.mp h).1.symm)
      · rintro ⟨r, p', hseek, ⟨b', hb', hlo, hret, hoff, harray⟩ | ⟨hret, rfl⟩⟩
        · obtain rfl := Option.some.inj (hbase'.symm.trans hb')
          rw [if_neg (by omega)] at hans
          cases hans
          exact ⟨(r, []), some p', by rw [hseek]; rfl, ⟨hret, errno_seek hbase' hseek, rfl⟩,
            holds_seek h hlo hoff harray⟩
        · -- the position would be `-1`
          have hneg := (ret_seek hbase' hseek).symm.trans hret
          have h0 := nonneg_of_holds h
          rw [hneg] at h0
          exact absurd h0 (by decide)

/-- **One request is answered as by a file** exactly if it fits. -/
theorem answers_iff {provider : Option QByteArrayDataProvider} (h : Holds f provider)
    (q : Request) {o : Reply} {f' : File UInt8} (hans : answer f q = .ok (o, f')) :
    (∃ r s, dataCallback transferProvider provider q = .ok (r, s) ∧ Answers o r ∧ Holds f' s) ↔
      Fits f q := by
  obtain ⟨p, rfl, -⟩ := id h
  cases q with
  | read buf buflen => exact iff_of_true (answers_read h buf buflen hans) trivial
  | write memory buf => exact answers_write_iff h memory buf hans
  | writeNull memory buflen =>
      refine iff_of_true ?_ trivial
      simp only [answer] at hans
      split at hans
      · next hn =>
          cases hans
          exact ⟨(⟨0, 0⟩, []), some p, by
            simp [dataCallback, dataWriteCallback, transferProvider, write, hn, Except.map],
            ⟨rfl, rfl, rfl⟩, h⟩
      · next hn =>
          cases hans
          exact ⟨(⟨-1, Error.setSystemError .einval⟩, []), some p, by
            simp [dataCallback, dataWriteCallback, transferProvider, write, hn, Except.map],
            ⟨rfl, rfl, rfl⟩, h⟩
  | seek offset whence => exact answers_seek_iff h offset whence hans
  | release =>
      cases hans
      exact iff_of_true ⟨(⟨0, 0⟩, []), some p.release, rfl, ⟨rfl, rfl, rfl⟩,
        holds_some.mpr ⟨rfl, (holds_some.mp h).2⟩⟩ trivial

end Requests

/-! ## Runs -/

/-- **When a provider is a file.**  From a provider that holds what the file holds, the callbacks
answer a run of requests as the file does, and hold after each of them what it holds, exactly if
all of them fit. -/
theorem answersAsFile_iff {p : QByteArrayDataProvider} {f f' : File UInt8}
    (h : Holds f (some p)) {ts : List (Transition (File UInt8) Request Reply)}
    (hrun : Run answer f ts f') :
    (∃ us s, Run (dataCallback transferProvider) (some p) us s ∧
      List.Forall₂ (Run.Corresponds Holds Answers) ts us) ↔
        ∀ t ∈ ts, Fits t.source t.input :=
  hrun.matched_iff Holds Answers (fun t => Fits t.source t.input)
    (fun _ _ i _ _ hheld hans => answers_iff hheld i hans) h

omit [LibGpgError] in
/-- Three bytes: a read of two from the second on, and a write of one behind them. -/
theorem answersAsFile_threeBytes :
    letI := LibGpgError.documented
    ∃ ts f', Run answer ⟨[97, 98, 99], 1⟩ ts f' ∧
      ts.map Transition.input = [.read true 2, .write (fun _ => 0) ⟨[120], by decide⟩] ∧
      ((∃ us s, Run (dataCallback transferProvider) (some threeBytes) us s ∧
        List.Forall₂ (Run.Corresponds Holds Answers) ts us) ↔
          ∀ t ∈ ts, Fits t.source t.input) := by
  let := LibGpgError.documented
  have hrun : Run answer ⟨[97, 98, 99], 1⟩ _ _ := .cons (i := .read true 2) rfl
    (.cons (i := .write (fun _ => 0) ⟨[120], by decide⟩) rfl (.nil _))
  exact ⟨_, _, hrun, rfl, answersAsFile_iff ⟨threeBytes, rfl, rfl, by decide⟩ hrun⟩

/-! ## Writing and reading -/

/-- Writes, one after the other. -/
def writes (memory : ℕ → UInt8) (bufs : List Buffer) : List Request := bufs.map (.write memory)

/-- Reads, with buffers, one after the other. -/
def callbackReads (sizes : List UInt64) : List Request := sizes.map (.read true)

/-- What a run of writes at the end of a file comes to. -/
theorem run_writes (memory : ℕ → UInt8) (bufs : List Buffer) {f : File UInt8} (hend : f.AtEnd)
    (hsize : (f.content ++ (bufs.map Buffer.bytes).flatten).length < 2 ^ 31) :
    ∃ ts, Run answer f ts (f.writeAll 0 (bufs.map Buffer.bytes)) ∧
      ts.map Transition.input = writes memory bufs ∧ (∀ t ∈ ts, Fits t.source t.input) ∧
      ts.flatMap (·.output.bytes) = [] := by
  induction bufs generalizing f with
  | nil => exact ⟨[], .nil f, rfl, by simp, rfl⟩
  | cons buf bufs ih =>
      have hpos : f.pos = f.content.length := hend
      have hwrite := File.write_of_atEnd (z := 0) hend buf.bytes
      obtain ⟨o, hstep, hbytes⟩ : ∃ o, answer f (.write memory buf) =
          .ok (o, f.write 0 buf.bytes) ∧ o.bytes = [] := by
        by_cases hd : buf.bytes = []
        · have hsame : f.write 0 buf.bytes = f := by rw [hwrite, hd, List.append_nil, ← hpos]
          exact ⟨⟨0, 0, []⟩, by simp only [answer, if_pos hd, hsame], rfl⟩
        · exact ⟨⟨buf.bytes.length, 0, []⟩, by simp only [answer, if_neg hd], rfl⟩
      have hsize' : ((f.write 0 buf.bytes).content ++ (bufs.map Buffer.bytes).flatten).length <
          2 ^ 31 := by
        rw [hwrite]
        simpa using hsize
      have hend' : (f.write 0 buf.bytes).AtEnd := by
        rw [hwrite]
        rfl
      obtain ⟨ts, hrun, hin, hfits, hout⟩ := ih hend' hsize'
      refine ⟨_, .cons hstep hrun, by simp [hin, writes], ?_, by simp [hout, hbytes]⟩
      rw [List.forall_mem_cons]
      refine ⟨.inr ?_, hfits⟩
      have hno : ¬ f.pos < f.content.length := by omega
      simp only [List.map_cons, List.flatten_cons, List.length_append] at hsize
      simp only [hno, if_false]
      omega

/-- What a run of reads comes to. -/
theorem run_reads (sizes : List UInt64) (f : File UInt8) :
    ∃ ts f', Run answer f ts f' ∧ ts.map Transition.input = callbackReads sizes ∧
      (∀ t ∈ ts, Fits t.source t.input) ∧
      ts.map (·.output.bytes) = (f.readAll (sizes.map UInt64.toNat)).1 := by
  induction sizes generalizing f with
  | nil => exact ⟨[], f, .nil f, rfl, by simp, rfl⟩
  | cons n sizes ih =>
      obtain ⟨o, hstep, hbytes⟩ : ∃ o, answer f (.read true n) = .ok (o, (f.read n.toNat).2) ∧
          o.bytes = (f.read n.toNat).1 := by
        by_cases hn : n = 0
        · exact ⟨⟨0, 0, []⟩, by simp [answer, hn, File.read], by simp [hn, File.read]⟩
        · exact ⟨⟨(f.read n.toNat).1.length, 0, (f.read n.toNat).1⟩, by
            simp only [answer, if_neg hn, Bool.true_eq_false, if_false], rfl⟩
      obtain ⟨ts, f', hrun, hin, hfits, hout⟩ := ih (f.read n.toNat).2
      refine ⟨_, f', .cons hstep hrun, by simp [hin, callbackReads], ?_, ?_⟩
      · exact List.forall_mem_cons.mpr ⟨trivial, hfits⟩
      · simp [hout, hbytes, File.readAll]

/-- **What is written can be read back.**  Behind the data of a provider, buffers of any sizes are
written, so that an `int` can count all bytes, and after a seek to the start there are reads of any
sizes.  They deliver the data and what was written, in order, as far as they go. -/
theorem written_read {p : QByteArrayDataProvider} {f : File UInt8} (h : Holds f (some p))
    (hend : f.AtEnd) (memory : ℕ → UInt8) (bufs : List Buffer)
    (hsize : (f.content ++ (bufs.map Buffer.bytes).flatten).length < 2 ^ 31)
    (sizes : List UInt64) :
    ∃ us s, Run (dataCallback transferProvider) (some p) us s ∧
      us.map Transition.input = writes memory bufs ++ .seek 0 .seekSet :: callbackReads sizes ∧
      us.flatMap (·.output.2) = (f.content ++ (bufs.map Buffer.bytes).flatten).take
        (sizes.map UInt64.toNat).sum := by
  obtain ⟨ts, hrun, hin, hfits, hout⟩ := run_writes memory bufs hend hsize
  obtain ⟨hcontent, -⟩ := File.writeAll_of_atEnd (z := 0) hend (bufs.map Buffer.bytes)
  obtain ⟨m, hm⟩ : ∃ m, f.writeAll 0 (bufs.map Buffer.bytes) = m := ⟨_, rfl⟩
  rw [hm] at hrun hcontent
  have hseek : answer m (.seek 0 .seekSet) = .ok (⟨0, 0, []⟩, { m with pos := 0 }) := rfl
  obtain ⟨ts', f', hrun', hin', hfits', hout'⟩ := run_reads sizes { m with pos := 0 }
  have hall := hrun.append (.cons hseek hrun')
  have hfitsAll : ∀ t ∈ ts ++ ⟨m, .seek 0 .seekSet, ⟨0, 0, []⟩, { m with pos := 0 }⟩ :: ts',
      Fits t.source t.input := by
    simp only [List.forall_mem_append, List.forall_mem_cons]
    refine ⟨hfits, ?_, hfits'⟩
    rintro b ⟨⟩
    decide
  obtain ⟨us, s, hus, hcorr⟩ := (hall.matched_iff Holds Answers (fun t => Fits t.source t.input)
    (fun _ _ i _ _ hheld hans => answers_iff hheld i hans) h).mpr hfitsAll
  have hbytes := Run.outputs_of_corresponds Reply.bytes Prod.snd hcorr
    fun _ _ hmatches => hmatches.2.2
  refine ⟨us, s, hus, ?_, ?_⟩
  · simp [Run.inputs_of_corresponds hcorr, hin, hin']
  · rw [List.flatMap_def, hbytes, ← List.flatMap_def, List.flatMap_append, List.flatMap_cons, hout,
      List.flatMap_def, hout', File.delivered_readAll, hcontent]
    rfl

omit [LibGpgError] in
/-- Two buffers written to an empty provider, and read at once. -/
theorem written_read_pieces :
    letI := LibGpgError.documented
    ∃ us s, Run (dataCallback transferProvider) (some ⟨⟨[], by decide⟩, 0⟩) us s ∧
      us.map Transition.input =
        writes (fun _ => 0) [⟨[104, 101], by decide⟩, ⟨[121], by decide⟩] ++
          .seek 0 .seekSet :: callbackReads [16] ∧
      us.flatMap (·.output.2) = [104, 101, 121] :=
  letI := LibGpgError.documented
  written_read (f := ⟨[], 0⟩) ⟨_, rfl, rfl, by decide⟩ rfl (fun _ => 0)
    [⟨[104, 101], by decide⟩, ⟨[121], by decide⟩] (by decide) [16]

end QByteArrayDataProvider

end Gpgmepp
