import Gpgmepp.EditInteractor

/-!
# `GpgSetOwnerTrustEditInteractor`

Sets the owner trust of a key: `trust`, the digit of the trust, `Y` if gpg asks
whether ultimate trust is meant, `quit`, and `Y` to save.
-/

namespace Gpgmepp

/-- `Key::OwnerTrust`. -/
inductive OwnerTrust
  | unknown | undefined | never | marginal | full | ultimate
  deriving DecidableEq, Repr

namespace GpgSetOwnerTrustEditInteractor

open EditInteractor

/-! The states of `GpgSetOwnerTrustEditInteractor_Private`. -/

abbrev start : ℕ := startState
abbrev command : ℕ := 1
abbrev value : ℕ := 2
abbrev reallyUltimate : ℕ := 3
abbrev quit : ℕ := 4
abbrev save : ℕ := 5
abbrev error : ℕ := errorState

/-- `truststrings[m_ownertrust]`. -/
def truststrings : OwnerTrust → CString
  | .unknown => .lit "1"
  | .undefined => .lit "1"
  | .never => .lit "2"
  | .marginal => .lit "3"
  | .full => .lit "4"
  | .ultimate => .lit "5"

variable [LibGpgError]

/-- `GpgSetOwnerTrustEditInteractor::action`. -/
def action (ownertrust : OwnerTrust) (state : ℕ) (err : Error) : Option CString × Error :=
  if state = command then (some (.lit "trust"), err)
  else if state = value then (some (truststrings ownertrust), err)
  else if state = reallyUltimate then (some (.lit "Y"), err)
  else if state = quit then (some (.lit "quit"), err)
  else if state = save then (some (.lit "Y"), err)
  else if state = start ∨ state = error then (none, err)
  else (none, .fromCodeUser1 .general)

/-- `GpgSetOwnerTrustEditInteractor::nextState`. -/
def nextState (state : ℕ) (lastError : Error) (status : StatusCode) (args : CString)
    (err : Error) : ℕ × Error :=
  if needsNoResponse status then (state, err)
  else if state = start then
    if status = .getLine ∧ args = .lit "keyedit.prompt" then (command, err)
    else (error, .fromCodeUser1 .general)
  else if state = command then
    if status = .getLine ∧ args = .lit "edit_ownertrust.value" then (value, err)
    else (error, .fromCodeUser1 .general)
  else if state = value then
    if status = .getLine ∧ args = .lit "keyedit.prompt" then (quit, err)
    else if status = .getBool ∧ args = .lit "edit_ownertrust.set_ultimate.okay" then
      (reallyUltimate, err)
    else (error, .fromCodeUser1 .general)
  else if state = reallyUltimate then
    if status = .getLine ∧ args = .lit "keyedit.prompt" then (quit, err)
    else (error, .fromCodeUser1 .general)
  else if state = quit then
    if status = .getBool ∧ args = .lit "keyedit.save.okay" then (save, err)
    else (error, .fromCodeUser1 .general)
  else if state = error then
    if status = .getLine ∧ args = .lit "keyedit.prompt" then (quit, err)
    else (error, lastError)
  else (error, .fromCodeUser1 .general)

end GpgSetOwnerTrustEditInteractor

open GpgSetOwnerTrustEditInteractor in
/-- `GpgSetOwnerTrustEditInteractor`, constructed with the trust `ownertrust`. -/
def gpgSetOwnerTrustEditInteractor [LibGpgError] (ownertrust : OwnerTrust) :
    EditInteractor Unit where
  nextState state lastError _ status args err :=
    ((nextState state lastError status args err).1,
      (nextState state lastError status args err).2, ())
  action state _ _ err :=
    .ok ((action ownertrust state err).1, (action ownertrust state err).2, ())

end Gpgmepp
