import Gpgmepp.Error
import Gpgmepp.Lib.Run

/-!
# `QIODeviceDataProvider`

Reads the data of a gpgme operation from a `QIODevice`.  A device read yields a number
of bytes, or `-1` with or without `errno`.  gpgme takes `0` for the end of the data and
repeats a read that fails without `errno`, so the provider means to turn the first such
failure into an end and to give the later ones an `errno`: `LawfulReads`.

The test for it, `Error::hasSystemError`, is true exactly when there is no system error.
So the first failure is always reported wrongly, as the end of the data when it has an
`errno` and as a failure without `errno` when it has none, and a run of reads is lawful
exactly when no device read fails: `lawfulReads_iff`.

## Main definitions

* `Polling`, `DeviceRead`, `ReadCall` — how the device behaves during one call.
* `blockingRead`, `QIODeviceDataProvider.read` — the functions of the source.
* `LawfulReads` — what gpgme is to be told.
-/

namespace Gpgmepp

open StateMachine LibGpgError

/-- What `QIODevice::read` yields. -/
inductive DeviceRead
  | bytes (bs : List UInt8)
  /-- The result `-1`, with what `errno` is then. -/
  | failed (errno : ℕ)

/-- `QProcess::ProcessError`. -/
inductive ProcessError
  | failedToStart | crashed | timedout | writeError | readError | unknownError
  deriving DecidableEq

/-- `QProcess::ExitStatus`. -/
inductive ExitStatus | normalExit | crashExit
  deriving DecidableEq

/-- What a `QProcess` says of its process. -/
structure ProcessStatus where
  error : ProcessError
  exitStatus : ExitStatus
  exitCode : Int32

/-- How a device answers `bytesAvailable` and `waitForReadyRead` while a read waits. -/
inductive Polling
  | available
  /-- No bytes, but `waitForReadyRead` returns true. -/
  | ready (rest : Polling)
  /-- No bytes, and `waitForReadyRead` returns false. -/
  | ended (status : ProcessStatus)

/-- A process that came to its end by itself, with success. -/
def ProcessStatus.Normal (p : ProcessStatus) : Prop :=
  p.error = .unknownError ∧ p.exitStatus = .normalExit ∧ p.exitCode = 0

instance (p : ProcessStatus) : Decidable p.Normal := inferInstanceAs (Decidable (_ ∧ _ ∧ _))

/-- The device of a provider: a `QProcess` or any other. -/
inductive Device | plain | process
  deriving DecidableEq

/-- A call of `read`, with the behaviour of the device during it.  `errno` is zero
before the call. -/
structure ReadCall where
  /-- Whether `buffer` is not null. -/
  hasBuffer : Bool
  bufSize : UInt64
  polling : Polling
  outcome : DeviceRead

/-- The result of a read: its value, `errno` and the bytes in the buffer. -/
structure ReadResult where
  ret : ℤ
  errno : ℕ
  data : List UInt8

/-- `io->read(buffer, maxSize)`. -/
def DeviceRead.read (outcome : DeviceRead) (maxSize : UInt64) : ReadResult :=
  match outcome with
  | .bytes bs => ⟨(bs.take maxSize.toNat).length, 0, bs.take maxSize.toNat⟩
  | .failed errno => ⟨-1, errno, []⟩

section BlockingRead
variable [LibGpgError]

/-- `blocking_read(io, buffer, maxSize)`. -/
def blockingRead (io : Device) (outcome : DeviceRead) (maxSize : UInt64) : Polling → ReadResult
  | .available => outcome.read maxSize
  | .ready rest => blockingRead io outcome maxSize rest
  | .ended p =>
      if io = .process then
        if p.Normal then ⟨0, 0, []⟩
        else ⟨-1, Error.setSystemError .eio, []⟩
      else ⟨0, 0, []⟩

end BlockingRead

/-- `QIODeviceDataProvider`.  `mHaveQProcess` says what `mIO` is. -/
structure QIODeviceDataProvider where
  mIO : Device
  mErrorOccurred : Bool
  mHaveQProcess : Bool
  haveQProcess_iff : mHaveQProcess = true ↔ mIO = .process

namespace QIODeviceDataProvider

/-- The constructor. -/
def ofDevice (io : Device) : QIODeviceDataProvider where
  mIO := io
  mErrorOccurred := false
  mHaveQProcess := io = .process
  haveQProcess_iff := decide_eq_true_iff

variable [LibGpgError]

/-- The part of `read` that asks the device. -/
def deviceRead (p : QIODeviceDataProvider) (c : ReadCall) : ReadResult :=
  if p.mHaveQProcess then blockingRead p.mIO c.outcome c.bufSize c.polling
  else c.outcome.read c.bufSize

/-- `QIODeviceDataProvider::read`. -/
def read (p : QIODeviceDataProvider) (c : ReadCall) : ReadResult × QIODeviceDataProvider :=
  if c.bufSize = 0 then (⟨0, 0, []⟩, p)
  else if c.hasBuffer = false then (⟨-1, Error.setSystemError .einval, []⟩, p)
  else
    let r := p.deviceRead c
    let rc :=
      if r.ret < 0 ∧ Error.hasSystemError r.errno = false then
        if p.mErrorOccurred then { r with errno := Error.setSystemError .eio }
        else { r with ret := 0 }
      else r
    (rc, { p with mErrorOccurred := p.mErrorOccurred || r.ret < 0 })

/-- A provider as a machine on calls of `read`. -/
def reading (p : QIODeviceDataProvider) (c : ReadCall) :
    Except Empty (ReadResult × QIODeviceDataProvider) := .ok (p.read c)

/-- A completed call. -/
abbrev ReadStep := Transition QIODeviceDataProvider ReadCall ReadResult

/-- The call has a buffer and a size. -/
def Asks (c : ReadCall) : Prop := c.hasBuffer = true ∧ c.bufSize ≠ 0

/-- The device failed during the call. -/
def Fails (t : ReadStep) : Prop := Asks t.input ∧ (t.source.deviceRead t.input).ret < 0

/-- What gpgme is to be told about a run of reads.  A result of the device that is no
failure is passed on; a failure with an `errno` is reported as one; a failure without
`errno` is reported as the end of the data if it is the first failure of the run, and
after that as a failure with `errno` set to `EIO`; no failure is reported without
`errno`. -/
def LawfulReads (ts : List ReadStep) : Prop :=
  ∀ pre t post, ts = pre ++ t :: post → Asks t.input →
    (0 ≤ (t.source.deviceRead t.input).ret → t.output = t.source.deviceRead t.input) ∧
    ((t.source.deviceRead t.input).ret < 0 → (t.source.deviceRead t.input).errno ≠ 0 →
      t.output.ret = -1) ∧
    ((t.source.deviceRead t.input).ret < 0 → (t.source.deviceRead t.input).errno = 0 →
      ((∀ u ∈ pre, ¬ Fails u) → t.output.ret = 0) ∧
      ((∃ u ∈ pre, Fails u) →
        t.output.ret = -1 ∧ t.output.errno = Error.setSystemError .eio)) ∧
    (t.output.ret = -1 → t.output.errno ≠ 0)

/-! ## One call -/

/-- A call that asks gets what the device yields unless that is a failure. -/
theorem read_of_nonneg {p : QIODeviceDataProvider} {c : ReadCall} (hc : Asks c)
    (h : 0 ≤ (p.deviceRead c).ret) : p.read c = (p.deviceRead c, p) := by
  have hneg : ¬ (p.deviceRead c).ret < 0 := by omega
  simp [read, hc.1, hc.2, hneg]

/-- The first failure is reported wrongly: as the end of the data if it has an `errno`,
and without `errno` if it has none. -/
theorem read_of_first_failure {p : QIODeviceDataProvider} {c : ReadCall} (hc : Asks c)
    (h : (p.deviceRead c).ret < 0) (hp : p.mErrorOccurred = false) :
    ((p.deviceRead c).errno ≠ 0 → (p.read c).1.ret = 0) ∧
      ((p.deviceRead c).errno = 0 → (p.read c).1.ret < 0) := by
  have hsys : Error.hasSystemError (p.deviceRead c).errno = false ↔
      (p.deviceRead c).errno ≠ 0 := by
    rw [← Bool.not_eq_true, Error.hasSystemError_iff]
  constructor
  · intro he
    simp [read, hc.1, hc.2, h, hp, hsys.mpr he]
  · intro he
    have hno : ¬ Error.hasSystemError (p.deviceRead c).errno = false := fun hs => hsys.mp hs he
    simp only [read, hc.1, hc.2, h, hno]
    simpa using h

/-- A call whose device does not fail does not touch `mErrorOccurred`. -/
theorem mErrorOccurred_read {p : QIODeviceDataProvider} {c : ReadCall}
    (h : Asks c → 0 ≤ (p.deviceRead c).ret) : (p.read c).2 = p := by
  by_cases hc : Asks c
  · rw [read_of_nonneg hc (h hc)]
  · simp only [read]
    split
    · rfl
    · split
      · rfl
      · next h0 hb => exact absurd ⟨by simpa using hb, h0⟩ hc

/-! ## Runs -/

theorem LawfulReads.of_append {ts us : List ReadStep} (h : LawfulReads (ts ++ us)) :
    LawfulReads ts := by
  rintro pre t post rfl hc
  exact h pre t (post ++ us) (by simp) hc

/-- In a lawful run no device read fails: the first that does is reported wrongly. -/
theorem not_fails_of_lawfulReads {io : Device} {ts : List ReadStep} {p : QIODeviceDataProvider}
    (h : Run reading (ofDevice io) ts p) :
    LawfulReads ts → (∀ t ∈ ts, ¬ Fails t) ∧ p.mErrorOccurred = false := by
  refine Run.history (fun ts p => LawfulReads ts → (∀ t ∈ ts, ¬ Fails t) ∧ p.mErrorOccurred = false)
    ?_ ?_ h
  · exact fun _ => ⟨by simp, rfl⟩
  · intro ts p c a p' _ ih hstep hlaw
    obtain ⟨rfl, rfl⟩ : (p.read c).1 = a ∧ (p.read c).2 = p' := Prod.mk.inj (Except.ok.inj hstep)
    obtain ⟨hok, hp⟩ := ih hlaw.of_append
    have hnonneg : Asks c → 0 ≤ (p.deviceRead c).ret := by
      intro hc
      by_contra hneg
      have hfail : (p.deviceRead c).ret < 0 := by omega
      obtain ⟨_, hsys, hnosys, _⟩ := hlaw ts _ [] rfl hc
      obtain ⟨hzero, hminus⟩ := read_of_first_failure hc hfail hp
      by_cases he : (p.deviceRead c).errno = 0
      · have h0 := (hnosys hfail he).1 hok
        have h1 := hminus he
        simp only at h0
        omega
      · have h0 := hsys hfail he
        rw [hzero he] at h0
        exact absurd h0 (by decide)
    refine ⟨?_, by rw [mErrorOccurred_read hnonneg]; exact hp⟩
    intro t ht hfails
    rcases List.mem_append.mp ht with ht | ht
    · exact hok t ht hfails
    · obtain rfl := List.mem_singleton.mp ht
      have := hnonneg hfails.1
      have := hfails.2
      simp only at this
      omega

/-- **A run of reads tells gpgme what it should if and only if no device read fails.** -/
theorem lawfulReads_iff (io : Device) (ts : List ReadStep) (p : QIODeviceDataProvider)
    (h : Run reading (ofDevice io) ts p) : LawfulReads ts ↔ ∀ t ∈ ts, ¬ Fails t := by
  constructor
  · exact fun hlaw => (not_fails_of_lawfulReads h hlaw).1
  · rintro hok pre t post rfl hc
    have ht := hok t (by simp)
    have hnonneg : 0 ≤ (t.source.deviceRead t.input).ret := by
      by_contra hneg
      exact ht ⟨hc, by omega⟩
    have hout : t.output = t.source.deviceRead t.input := by
      have hstep := h.cut.2.1
      simp only [reading, read_of_nonneg hc hnonneg, Except.ok.injEq, Prod.mk.injEq] at hstep
      exact hstep.1.symm
    refine ⟨fun _ => hout, fun hneg => ?_, fun hneg => ?_, fun hneg => ?_⟩
    · omega
    · omega
    · rw [hout] at hneg
      omega

/-- A read of three bytes from a plain device. -/
def threeBytes : ReadCall := ⟨true, 16, .available, .bytes [104, 105, 10]⟩

/-- A read from a plain device that fails with `errno` set. -/
def failing : ReadCall := ⟨true, 16, .available, .failed 5⟩

omit [LibGpgError] in
theorem lawfulReads_threeBytes :
    letI := documented
    let t : ReadStep := ⟨ofDevice .plain, threeBytes, ⟨3, 0, [104, 105, 10]⟩, ofDevice .plain⟩
    LawfulReads [t] ↔ ∀ u ∈ [t], ¬ Fails u :=
  letI := documented
  lawfulReads_iff .plain _ _ (.single rfl)

omit [LibGpgError] in
/-- A failure with an `errno` becomes the end of the data. -/
theorem not_lawfulReads_failing :
    letI := documented
    ¬ ∀ (io : Device) (ts : List ReadStep) (p : QIODeviceDataProvider),
      Run reading (ofDevice io) ts p → LawfulReads ts := by
  let := documented
  intro h
  have hrun : Run reading (ofDevice .plain)
      [⟨ofDevice .plain, failing, ⟨0, 5, []⟩, ((ofDevice .plain).read failing).2⟩] _ :=
    .single rfl
  obtain ⟨_, hsys, _⟩ := h .plain _ _ hrun [] _ [] rfl ⟨rfl, by decide⟩
  exact absurd (hsys (by decide) (by decide)) (by decide)

end QIODeviceDataProvider

end Gpgmepp
