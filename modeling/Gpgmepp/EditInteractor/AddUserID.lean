import Gpgmepp.EditInteractor

/-!
# `GpgAddUserIDEditInteractor`

Adds a user ID to a key: `adduid`, the name, the email address, the comment, `quit`,
and `Y` to save.
-/

namespace Gpgmepp.GpgAddUserIDEditInteractor

open EditInteractor

/-- What `setNameUtf8`, `setEmailUtf8` and `setCommentUtf8` have set. -/
structure UserIDParts where
  name : StdString
  email : StdString
  comment : StdString

/-! The states of `GpgAddUserIDEditInteractor_Private`. -/

abbrev start : ℕ := startState
abbrev command : ℕ := 1
abbrev name : ℕ := 2
abbrev email : ℕ := 3
abbrev comment : ℕ := 4
abbrev quit : ℕ := 5
abbrev save : ℕ := 6
abbrev error : ℕ := errorState

variable [LibGpgError]

/-- `GpgAddUserIDEditInteractor::action`. -/
def action (m : UserIDParts) (state : ℕ) (err : Error) : Option CString × Error :=
  if state = command then (some (.lit "adduid"), err)
  else if state = name then (some (.cStr m.name), err)
  else if state = email then (some (.cStr m.email), err)
  else if state = comment then (some (.cStr m.comment), err)
  else if state = quit then (some (.lit "quit"), err)
  else if state = save then (some (.lit "Y"), err)
  else if state = start ∨ state = error then (none, err)
  else (none, .fromCodeUser1 .general)

/-- `GpgAddUserIDEditInteractor::nextState`. -/
def nextState (state : ℕ) (lastError : Error) (status : StatusCode) (args : CString)
    (err : Error) : ℕ × Error :=
  if needsNoResponse status then (state, err)
  else if state = start then
    if status = .getLine ∧ args = .lit "keyedit.prompt" then (command, err)
    else (error, .fromCodeUser1 .general)
  else if state = command then
    if status = .getLine ∧ args = .lit "keygen.name" then (name, err)
    else (error, .fromCodeUser1 .general)
  else if state = name then
    if status = .getLine ∧ args = .lit "keygen.email" then (email, err)
    else if status = .getLine ∧ args = .lit "keygen.name" then (error, .fromCodeUser1 .invName)
    else (error, .fromCodeUser1 .general)
  else if state = email then
    if status = .getLine ∧ args = .lit "keygen.comment" then (comment, err)
    else if status = .getLine ∧ args = .lit "keygen.email" then (error, .fromCodeUser1 .invUserId)
    else (error, .fromCodeUser1 .general)
  else if state = comment then
    if status = .getLine ∧ args = .lit "keyedit.prompt" then (quit, err)
    else if status = .getLine ∧ args = .lit "keygen.comment" then (error, .fromCodeUser1 .invUserId)
    else (error, .fromCodeUser1 .general)
  else if state = quit then
    if status = .getBool ∧ args = .lit "keyedit.save.okay" then (save, err)
    else (error, .fromCodeUser1 .general)
  else if state = error then
    if status = .getLine ∧ args = .lit "keyedit.prompt" then (quit, err)
    else (error, lastError)
  else (error, .fromCodeUser1 .general)

end GpgAddUserIDEditInteractor

open GpgAddUserIDEditInteractor in
/-- `GpgAddUserIDEditInteractor`, with the parts its setters were given. -/
def gpgAddUserIDEditInteractor [LibGpgError] (m : UserIDParts) : EditInteractor Unit where
  nextState state lastError _ status args err :=
    ((nextState state lastError status args err).1,
      (nextState state lastError status args err).2, ())
  action state _ _ err := .ok ((action m state err).1, (action m state err).2, ())

end Gpgmepp
