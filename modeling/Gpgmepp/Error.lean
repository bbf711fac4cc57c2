import Mathlib.Data.UInt
import Mathlib.Logic.Function.Basic
import Mathlib.Tactic.Common

/-!
# Error values

`Error` wraps the `gpgme_error_t` of libgpg-error: a 32-bit value that packs an
error source and an error code, zero for success.  The packing and the code
numbers belong to that library and are a parameter here, `LibGpgError`, with the
documented laws the sources rely on.

What matters later is that `Error`'s conversion to `bool` is not the test for a
non-zero code: a cancelled operation converts to `false`.

## Main definitions

* `LibGpgError` — libgpg-error as the sources use it; `LibGpgError.documented` is one
  such library.
* `Error`, `Error.toBool`, `Error.fromCode`, `Error.fromSystemError`.
* `Error.WellFormed` — non-zero only with a non-zero code.
-/

namespace Gpgmepp

/-- The codes of libgpg-error that the sources name. -/
inductive ErrName
  | noError | general | invUserId | invArg | unusablePubkey | notSupported | invName
  | canceled | sigExpired | invTime | noPassphrase | alreadySigned | missingErrno
  | eio | einval | espipe | enomem | notImplemented
  deriving DecidableEq, Repr

/-- libgpg-error, as far as the sources use it. -/
class LibGpgError where
  /-- The number of a named code, `GPG_ERR_...`. -/
  number : ErrName → UInt32
  number_injective : Function.Injective number
  number_noError : number .noError = 0
  number_lt : ∀ n, number n < 65536
  /-- `GPG_ERR_SOURCE_USER_1`. -/
  sourceUser1 : UInt32
  /-- `gpg_err_code`. -/
  errCode : UInt32 → UInt32
  /-- `gpg_err_make`, from a source and a code. -/
  errMake : UInt32 → UInt32 → UInt32
  errCode_zero : errCode 0 = 0
  errCode_make : ∀ s c, c < 65536 → errCode (errMake s c) = c
  /-- `gpg_err_code_from_syserror`, from the value of `errno`. -/
  codeFromSyserror : ℕ → UInt32
  codeFromSyserror_lt : ∀ e, codeFromSyserror e < 65536
  codeFromSyserror_eq_missingErrno : ∀ e, codeFromSyserror e = number .missingErrno ↔ e = 0
  /-- There is no error of the system without a code, and none is a cancellation. -/
  codeFromSyserror_ne : ∀ e, codeFromSyserror e ≠ 0 ∧ codeFromSyserror e ≠ number .canceled
  /-- `gpg_err_code_to_errno`. -/
  codeToErrno : UInt32 → ℕ

namespace LibGpgError

/-- The codes numbered in the order of `ErrName`. -/
def order : ErrName → ℕ
  | .noError => 0 | .general => 1 | .invUserId => 2 | .invArg => 3 | .unusablePubkey => 4
  | .notSupported => 5 | .invName => 6 | .canceled => 7 | .sigExpired => 8 | .invTime => 9
  | .noPassphrase => 10 | .alreadySigned => 11 | .missingErrno => 12 | .eio => 13
  | .einval => 14 | .espipe => 15 | .enomem => 16 | .notImplemented => 17

theorem order_lt (n : ErrName) : order n < 18 := by cases n <;> decide

theorem order_injective : Function.Injective order := by
  let names := [ErrName.noError, .general, .invUserId, .invArg, .unusablePubkey, .notSupported,
    .invName, .canceled, .sigExpired, .invTime, .noPassphrase, .alreadySigned, .missingErrno,
    .eio, .einval, .espipe, .enomem, .notImplemented]
  have hinv : ∀ n, names[order n]? = some n := by intro n; cases n <;> rfl
  intro a b h
  exact Option.some.inj (by rw [← hinv a, ← hinv b, h])

/-- A library of the documented layout, to evaluate instances with: the code is in the
low 16 bits, the source above it, and the codes of the system have bit 15 set. -/
abbrev documented : LibGpgError where
  number n := UInt32.ofNat (order n)
  number_injective := by
    intro a b h
    have ha := order_lt a
    have hb := order_lt b
    have := congrArg UInt32.toNat h
    simp only [UInt32.toNat_ofNat'] at this
    exact order_injective (by omega)
  number_noError := rfl
  number_lt := by
    intro n
    have := order_lt n
    rw [UInt32.lt_iff_toNat_lt, UInt32.toNat_ofNat']
    have h : (65536 : UInt32).toNat = 65536 := rfl
    omega
  sourceUser1 := 32
  errCode e := e % 65536
  errMake s c := if c = 0 then 0 else (s % 128) * 16777216 + c % 65536
  errCode_zero := rfl
  errCode_make := by
    intro s c hc
    have h1 : (65536 : UInt32).toNat = 65536 := rfl
    have h2 : (128 : UInt32).toNat = 128 := rfl
    have h3 : (16777216 : UInt32).toNat = 16777216 := rfl
    rw [UInt32.lt_iff_toNat_lt, h1] at hc
    split
    · next h0 => subst h0; rfl
    · apply UInt32.toNat.inj
      simp only [UInt32.toNat_mod, UInt32.toNat_add, UInt32.toNat_mul, h1, h2, h3]
      omega
  codeFromSyserror e :=
    if e = 0 then UInt32.ofNat (order .missingErrno) else UInt32.ofNat (32768 + e % 32768)
  codeFromSyserror_lt := by
    intro e
    have h1 : (65536 : UInt32).toNat = 65536 := rfl
    have := order_lt .missingErrno
    split <;> rw [UInt32.lt_iff_toNat_lt, UInt32.toNat_ofNat'] <;> omega
  codeFromSyserror_eq_missingErrno := by
    intro e
    split
    · next h => simp [h]
    · next h =>
        refine ⟨fun heq => ?_, fun h' => absurd h' h⟩
        have := congrArg UInt32.toNat heq
        simp only [UInt32.toNat_ofNat', order] at this
        omega
  codeFromSyserror_ne := by
    intro e
    split
    · exact ⟨by decide, by decide⟩
    · constructor <;>
        · intro heq
          have h := congrArg UInt32.toNat heq
          simp only [UInt32.toNat_ofNat', UInt32.toNat_zero, order] at h
          omega
  codeToErrno c := if c = UInt32.ofNat (order .eio) then 5 else 22

end LibGpgError

/-- The `gpgme_error_t` inside the class `Error`. -/
structure Error where
  mErr : UInt32
  deriving DecidableEq, Repr

namespace Error

/-- `Error()`. -/
def none : Error := ⟨0⟩

variable [LibGpgError]
open LibGpgError

/-- `Error::code`. -/
def code (e : Error) : UInt32 := errCode e.mErr

/-- `Error::encodedError`. -/
def encodedError (e : Error) : UInt32 := e.mErr

/-- `Error::isCanceled`. -/
def isCanceled (e : Error) : Bool := e.code == number .canceled

/-- The safe-bool conversion: `mErr && !isCanceled()`. -/
def toBool (e : Error) : Bool := e.mErr != 0 && !e.isCanceled

/-- `GPGMEPP_ERR_SOURCE_DEFAULT`, in the files that include the configured header. -/
def sourceDefault : UInt32 := 22

/-- `Error::fromCode(err, src)`. -/
def fromCodeOf (src : UInt32) (n : ErrName) : Error := ⟨errMake src (number n)⟩

/-- `Error::fromCode(err)` in the files that include the configured header, and `make_error`. -/
abbrev fromCode (n : ErrName) : Error := fromCodeOf sourceDefault n

/-- `Error::fromCode(err)` in those that do not, which are the ones of the edit interactors. -/
abbrev fromCodeUser1 (n : ErrName) : Error := fromCodeOf sourceUser1 n

/-- `Error::fromSystemError()`. -/
def fromSystemError (errno : ℕ) : Error := ⟨errMake sourceDefault (codeFromSyserror errno)⟩

/-- `Error::hasSystemError`. -/
def hasSystemError (errno : ℕ) : Bool := codeFromSyserror errno == number .missingErrno

/-- `Error::setSystemError`: the value `errno` is set to. -/
def setSystemError (n : ErrName) : ℕ := codeToErrno (number n)

/-- A value of the shape `gpg_err_make` produces: non-zero only with a code. -/
def WellFormed (e : Error) : Prop := e.mErr ≠ 0 → e.code ≠ 0

@[simp] theorem code_none : none.code = 0 := errCode_zero

@[simp] theorem toBool_none : none.toBool = false := by simp [none, toBool]

theorem mErr_ne_zero_of_code {e : Error} (h : e.code ≠ 0) : e.mErr ≠ 0 := by
  intro h0
  exact h (by simp [code, h0, errCode_zero])

/-- When the conversion is true: a non-zero value whose code is not the cancellation. -/
theorem toBool_iff {e : Error} :
    e.toBool = true ↔ e.mErr ≠ 0 ∧ e.code ≠ number .canceled := by
  simp [toBool, isCanceled]

theorem toBool_of_code {e : Error} (h : e.code ≠ 0) (hc : e.code ≠ number .canceled) :
    e.toBool = true :=
  toBool_iff.mpr ⟨mErr_ne_zero_of_code h, hc⟩

/-- What the conversion calls no error: no value at all, or a cancellation. -/
theorem toBool_eq_false_iff {e : Error} :
    e.toBool = false ↔ e = none ∨ e.code = number .canceled := by
  obtain ⟨n⟩ := e
  simp only [toBool, isCanceled, none, Error.mk.injEq, Bool.and_eq_false_iff, bne_eq_false_iff_eq,
    Bool.not_eq_false', beq_iff_eq]

theorem number_ne_zero {n : ErrName} (h : n ≠ .noError) : number n ≠ 0 := by
  rw [← number_noError]
  exact fun heq => h (number_injective heq)

@[simp] theorem code_fromCode (src : UInt32) (n : ErrName) : (fromCodeOf src n).code = number n :=
  errCode_make _ _ (number_lt n)

theorem mErr_fromCode {src : UInt32} {n : ErrName} (h : n ≠ .noError) :
    (fromCodeOf src n).mErr ≠ 0 :=
  mErr_ne_zero_of_code (by simpa using number_ne_zero h)

/-- Every named code but success and cancellation makes an error that counts. -/
theorem toBool_fromCode {src : UInt32} {n : ErrName} (h0 : n ≠ .noError) (hc : n ≠ .canceled) :
    (fromCodeOf src n).toBool = true := by
  refine toBool_of_code ?_ ?_
  · simpa using number_ne_zero h0
  · simpa using fun heq => hc (number_injective heq)

@[simp] theorem code_fromSystemError (errno : ℕ) :
    (fromSystemError errno).code = codeFromSyserror errno :=
  errCode_make _ _ (codeFromSyserror_lt errno)

@[simp] theorem toBool_fromSystemError (errno : ℕ) : (fromSystemError errno).toBool = true :=
  toBool_of_code (by simpa using (codeFromSyserror_ne errno).1)
    (by simpa using (codeFromSyserror_ne errno).2)

theorem hasSystemError_iff (errno : ℕ) : hasSystemError errno = true ↔ errno = 0 := by
  simp [hasSystemError, codeFromSyserror_eq_missingErrno]

theorem wellFormed_none : WellFormed none := by simp [WellFormed, none]

theorem wellFormed_fromCode {src : UInt32} {n : ErrName} (h : n ≠ .noError) :
    WellFormed (fromCodeOf src n) := by
  intro _
  simpa using number_ne_zero h

/-- An error that counts and is well formed has a non-zero code. -/
theorem WellFormed.code_ne_zero {e : Error} (h : WellFormed e) (hb : e.toBool = true) :
    e.code ≠ 0 :=
  h (toBool_iff.mp hb).1

end Error

end Gpgmepp
