import Gpgmepp.EditInteractor

/-!
# `GpgSetExpiryTimeEditInteractor`

Sets the expiry date of a key: `expire`, the date, `quit`, and `Y` to save.
-/

namespace Gpgmepp.GpgSetExpiryTimeEditInteractor

open EditInteractor

/-! The states of `GpgSetExpiryTimeEditInteractor_Private`. -/

abbrev start : ℕ := startState
abbrev command : ℕ := 1
abbrev date : ℕ := 2
abbrev quit : ℕ := 3
abbrev save : ℕ := 4
abbrev error : ℕ := errorState

variable [LibGpgError]

/-- `GpgSetExpiryTimeEditInteractor::action`. -/
def action (strtime : StdString) (state : ℕ) (err : Error) : Option CString × Error :=
  if state = command then (some (.lit "expire"), err)
  else if state = date then (some (.cStr strtime), err)
  else if state = quit then (some (.lit "quit"), err)
  else if state = save then (some (.lit "Y"), err)
  else if state = start ∨ state = error then (none, err)
  else (none, .fromCodeUser1 .general)

/-- `GpgSetExpiryTimeEditInteractor::nextState`. -/
def nextState (state : ℕ) (lastError : Error) (status : StatusCode) (args : CString)
    (err : Error) : ℕ × Error :=
  if needsNoResponse status then (state, err)
  else if state = start then
    if status = .getLine ∧ args = .lit "keyedit.prompt" then (command, err)
    else (error, .fromCodeUser1 .general)
  else if state = command then
    if status = .getLine ∧ args = .lit "keygen.valid" then (date, err)
    else (error, .fromCodeUser1 .general)
  else if state = date then
    if status = .getLine ∧ args = .lit "keyedit.prompt" then (quit, err)
    -- `strcmp` without `== 0`: any name but the date's own
    else if status = .getLine ∧ args ≠ .lit "keygen.valid" then (error, .fromCodeUser1 .invTime)
    else (error, .fromCodeUser1 .general)
  else if state = quit then
    if status = .getBool ∧ args = .lit "keyedit.save.okay" then (save, err)
    else (error, .fromCodeUser1 .general)
  else if state = error then
    if status = .getLine ∧ args = .lit "keyedit.prompt" then (quit, err)
    else (error, lastError)
  else (error, .fromCodeUser1 .general)

end GpgSetExpiryTimeEditInteractor

open GpgSetExpiryTimeEditInteractor in
/-- `GpgSetExpiryTimeEditInteractor`, constructed with the date `strtime`. -/
def gpgSetExpiryTimeEditInteractor [LibGpgError] (strtime : StdString) :
    EditInteractor Unit where
  nextState state lastError _ status args err :=
    ((nextState state lastError status args err).1,
      (nextState state lastError status args err).2, ())
  action state _ _ err := .ok ((action strtime state err).1, (action strtime state err).2, ())

end Gpgmepp
