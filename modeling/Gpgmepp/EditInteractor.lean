import Gpgmepp.Descriptor
import Gpgmepp.Error
import Gpgmepp.Lib.Run

/-!
# The edit interactor and its callback

gpgme drives an `EditInteractor` by calling `edit_interactor_callback_impl` once for
every status line of gpg.  The callback asks the subclass for the next state, and,
when the state changed, for a reply, which it writes to the descriptor gpg reads
its answers from.

A subclass is a pair of functions, `nextState` and `action`, over its own data;
nothing else is assumed of it.  `Outcome` lists everything one callback can do, and
every later result about the driver is a case analysis of it.

## Main definitions

* `StatusCode`, `Call` — status lines, with the answers of the descriptor.
* `EditInteractor`, `EditState` — a subclass, and an interactor at work.
* `editInteractorCallbackImpl` — the callback.
* `Outcome`, `outcome_of_callback` — what one callback does.
-/

namespace Gpgmepp

open StateMachine

/-- `gpgme_status_code_t`: the keywords the sources test for, and any other. -/
inductive StatusCode
  | missingPassphrase | alreadySigned | sigExpired
  | error | getBool | getLine | keyCreated | needPassphraseSym | scOpFailure
  | other (n : ℕ)
  deriving DecidableEq, Repr

/-- Why a call does not return: a failed `assert`, or a loop without end. -/
inductive NoReturn | assertionFailed | endless
  deriving DecidableEq

/-- One callback of gpgme: a status line, and how the descriptor answers the attempts
to write made during the callback. -/
structure Call where
  status : StatusCode
  args : CString
  attempts : ℕ → Attempt

/-- The virtual functions of a subclass of `EditInteractor` with private data `δ`.
They see `state()`, `lastError()` and what `err` holds when they are called. -/
structure EditInteractor (δ : Type) where
  /-- `nextState(statusCode, args, err)`. -/
  nextState : (state : ℕ) → (lastError : Error) → δ → StatusCode → CString → Error →
    ℕ × Error × δ
  /-- `action(err)`; the result may be a null pointer. -/
  action : (state : ℕ) → (lastError : Error) → δ → Error →
    Except NoReturn (Option CString × Error × δ)

/-- `EditInteractor::Private`, with the data of the subclass. -/
structure EditState (δ : Type) where
  state : ℕ
  error : Error
  data : δ

/-- What a callback returns and what it did to the descriptor. -/
structure Answer where
  ret : UInt32
  fd : Fd
  /-- Whether `action` was called. -/
  acted : Bool

namespace EditInteractor

/-- `EditInteractor::StartState`. -/
def startState : ℕ := 0

/-- `EditInteractor::ErrorState`. -/
def errorState : ℕ := 0xFFFFFFFF

/-- An interactor as its constructor leaves it. -/
def start {δ : Type} (data : δ) : EditState δ := ⟨startState, .none, data⟩

/-- `EditInteractor::needsNoResponse`. -/
def needsNoResponse : StatusCode → Bool
  | .alreadySigned | .error | .getBool | .getLine | .keyCreated | .needPassphraseSym
  | .scOpFailure => false
  | _ => true

section Callback
variable [LibGpgError] {δ : Type}

/-- `status_to_error`. -/
def statusToError : StatusCode → Error
  | .missingPassphrase => .fromCode .noPassphrase
  | .alreadySigned => .fromCode .alreadySigned
  | .sigExpired => .fromCode .sigExpired
  | _ => .none

/-- `writeAll(fd, "\n", 1)`, after `errno` was cleared. -/
def writeNewline (fd : Fd) (err : Error) : Option (Error × Fd) :=
  (writeAll fd 0 [newline] 1).map fun w =>
    if w.ret ≠ 1 then (.fromSystemError w.errno, w.fd) else (err, w.fd)

/-- The writing of an action's result: the text, if there is any, then a newline.
`errno` is cleared before each of the two. -/
def writeReply (fd : Fd) (result : CString) (err : Error) : Option (Error × Fd) :=
  if result.bytes = [] then writeNewline fd err
  else
    (writeAll fd 0 result.bytes result.bytes.length).bind fun w =>
      if w.ret ≠ result.bytes.length then some (.fromSystemError w.errno, w.fd)
      else writeNewline w.fd err

/-- The call of `action` and what is done with its result. -/
def runAction (I : EditInteractor δ) (ei : EditState δ) (err : Error) (fd : Fd) :
    Except NoReturn (Error × EditState δ × Fd) :=
  match I.action ei.state ei.error ei.data err with
  | .error f => .error f
  | .ok (none, err, data) => .ok (err, { ei with data }, fd)
  | .ok (some result, err, data) =>
      if err.toBool then .ok (err, { ei with data }, fd)
      else
        match writeReply fd result err with
        | none => .error .endless
        | some (err, fd) => .ok (err, { ei with data }, fd)

/-- The label `error:` of the callback. -/
def finish (err : Error) (ei : EditState δ) : EditState δ :=
  if err.toBool then { ei with error := err, state := errorState } else ei

/-- `CallbackHelper::edit_interactor_callback_impl`. -/
def editInteractorCallbackImpl (I : EditInteractor δ) (ei : EditState δ) (c : Call) :
    Except NoReturn (Answer × EditState δ) :=
  let fd := Fd.fresh c.attempts
  let answer (err : Error) (ei : EditState δ) (fd : Fd) (acted : Bool) :=
    (⟨(finish err ei).error.encodedError, fd, acted⟩, finish err ei)
  let err := statusToError c.status
  if err.toBool then .ok (answer err ei fd false)
  else
    -- advance to next state based on input
    let oldState := ei.state
    let (state, err, data) := I.nextState ei.state ei.error ei.data c.status c.args err
    if err.toBool then .ok (answer err { ei with state := oldState, data } fd false)
    else
      let ei := { ei with state, data }
      if state ≠ oldState ∧ ei.error.code = 0 then
        -- successful state change
        match runAction I ei err fd with
        | .error f => .error f
        | .ok (err, ei, fd) => .ok (answer err ei fd true)
      else .ok (answer err ei fd false)

/-! ## What one callback does -/

@[simp] theorem finish_of_toBool {err : Error} (h : err.toBool = true) (ei : EditState δ) :
    finish err ei = ⟨errorState, err, ei.data⟩ := by
  simp [finish, h]

@[simp] theorem finish_of_not {err : Error} (h : err.toBool = false) (ei : EditState δ) :
    finish err ei = ei := by
  simp [finish, h]

/-- Everything a callback that returns can do.  The names of the cases say where it
leaves the main path. -/
inductive Outcome (I : EditInteractor δ) (ei : EditState δ) (c : Call) :
    Answer → EditState δ → Prop
  /-- The status itself is an error. -/
  | mapped (h : (statusToError c.status).toBool = true) :
      Outcome I ei c ⟨(statusToError c.status).mErr, .fresh c.attempts, false⟩
        ⟨errorState, statusToError c.status, ei.data⟩
  /-- `nextState` reports an error. -/
  | rejected {s : ℕ} {e : Error} {d : δ} (h : (statusToError c.status).toBool = false)
      (hnext : I.nextState ei.state ei.error ei.data c.status c.args
        (statusToError c.status) = (s, e, d)) (he : e.toBool = true) :
      Outcome I ei c ⟨e.mErr, .fresh c.attempts, false⟩ ⟨errorState, e, d⟩
  /-- The state does not change, or an error was recorded before: no action. -/
  | idle {s : ℕ} {e : Error} {d : δ} (h : (statusToError c.status).toBool = false)
      (hnext : I.nextState ei.state ei.error ei.data c.status c.args
        (statusToError c.status) = (s, e, d)) (he : e.toBool = false)
      (hidle : s = ei.state ∨ ei.error.code ≠ 0) :
      Outcome I ei c ⟨ei.error.mErr, .fresh c.attempts, false⟩ ⟨s, ei.error, d⟩
  /-- `action` reports an error. -/
  | failed {s : ℕ} {e e' : Error} {d d' : δ} {r : Option CString}
      (h : (statusToError c.status).toBool = false)
      (hnext : I.nextState ei.state ei.error ei.data c.status c.args
        (statusToError c.status) = (s, e, d)) (he : e.toBool = false)
      (hs : s ≠ ei.state) (h0 : ei.error.code = 0)
      (hact : I.action s ei.error d e = .ok (r, e', d')) (he' : e'.toBool = true) :
      Outcome I ei c ⟨e'.mErr, .fresh c.attempts, true⟩ ⟨errorState, e', d'⟩
  /-- `action` has nothing to say. -/
  | silent {s : ℕ} {e e' : Error} {d d' : δ} (h : (statusToError c.status).toBool = false)
      (hnext : I.nextState ei.state ei.error ei.data c.status c.args
        (statusToError c.status) = (s, e, d)) (he : e.toBool = false)
      (hs : s ≠ ei.state) (h0 : ei.error.code = 0)
      (hact : I.action s ei.error d e = .ok (none, e', d')) (he' : e'.toBool = false) :
      Outcome I ei c ⟨ei.error.mErr, .fresh c.attempts, true⟩ ⟨s, ei.error, d'⟩
  /-- A reply is written, or its writing fails. -/
  | replied {s : ℕ} {e e' : Error} {d d' : δ} {r : CString}
      (h : (statusToError c.status).toBool = false)
      (hnext : I.nextState ei.state ei.error ei.data c.status c.args
        (statusToError c.status) = (s, e, d)) (he : e.toBool = false)
      (hs : s ≠ ei.state) (h0 : ei.error.code = 0)
      (hact : I.action s ei.error d e = .ok (some r, e', d')) (he' : e'.toBool = false)
      {e'' : Error} {fd : Fd} (hw : writeReply (.fresh c.attempts) r e' = some (e'', fd)) :
      Outcome I ei c ⟨(finish e'' ⟨s, ei.error, d'⟩).error.mErr, fd, true⟩
        (finish e'' ⟨s, ei.error, d'⟩)

/-- **The callback, inverted**: it did one of the things `Outcome` lists. -/
theorem outcome_of_callback {I : EditInteractor δ} {ei ei' : EditState δ} {c : Call}
    {a : Answer} (h : editInteractorCallbackImpl I ei c = .ok (a, ei')) :
    Outcome I ei c a ei' := by
  simp only [editInteractorCallbackImpl] at h
  cases hst : (statusToError c.status).toBool with
  | true =>
      simp only [hst, if_true, Except.ok.injEq, Prod.mk.injEq, finish_of_toBool] at h
      obtain ⟨rfl, rfl⟩ := h
      exact .mapped hst
  | false =>
      obtain ⟨⟨s, e, d⟩, hnext⟩ : ∃ n, I.nextState ei.state ei.error ei.data c.status c.args
        (statusToError c.status) = n := ⟨_, rfl⟩
      simp only [hst, hnext, Bool.false_eq_true, if_false] at h
      cases he : e.toBool with
      | true =>
          simp only [he, if_true, Except.ok.injEq, Prod.mk.injEq, finish_of_toBool] at h
          obtain ⟨rfl, rfl⟩ := h
          exact .rejected hst hnext he
      | false =>
          simp only [he, Bool.false_eq_true, if_false] at h
          by_cases hact : s ≠ ei.state ∧ ei.error.code = 0
          · rw [if_pos hact] at h
            simp only [runAction] at h
            rcases ha : I.action s ei.error d e with f | ⟨r, e', d'⟩
            · simp [ha] at h
            · cases r with
              | none =>
                  simp only [ha, Except.ok.injEq, Prod.mk.injEq] at h
                  obtain ⟨rfl, rfl⟩ := h
                  cases he' : e'.toBool with
                  | true => simpa [he'] using .failed hst hnext he hact.1 hact.2 ha he'
                  | false => simpa [he'] using .silent hst hnext he hact.1 hact.2 ha he'
              | some r =>
                  cases he' : e'.toBool with
                  | true =>
                      simp only [ha, he', if_true, Except.ok.injEq, Prod.mk.injEq,
                        finish_of_toBool] at h
                      obtain ⟨rfl, rfl⟩ := h
                      exact .failed hst hnext he hact.1 hact.2 ha he'
                  | false =>
                      simp only [ha, he', Bool.false_eq_true, if_false] at h
                      rcases hw : writeReply (.fresh c.attempts) r e' with _ | ⟨e'', fd⟩
                      · simp [hw] at h
                      · simp only [hw, Except.ok.injEq, Prod.mk.injEq] at h
                        obtain ⟨rfl, rfl⟩ := h
                        exact .replied hst hnext he hact.1 hact.2 ha he' hw
          · rw [if_neg hact] at h
            simp only [Except.ok.injEq, Prod.mk.injEq, finish_of_not he] at h
            obtain ⟨rfl, rfl⟩ := h
            refine .idle hst hnext he ?_
            by_cases hs : s = ei.state
            · exact .inl hs
            · exact .inr fun h0 => hact ⟨hs, h0⟩

/-- Each thing `Outcome` lists is what the callback computes. -/
theorem Outcome.callback_eq {I : EditInteractor δ} {ei ei' : EditState δ} {c : Call}
    {a : Answer} (h : Outcome I ei c a ei') :
    editInteractorCallbackImpl I ei c = .ok (a, ei') := by
  cases h with
  | mapped h => simp [editInteractorCallbackImpl, h, Error.encodedError]
  | rejected h hnext he => simp [editInteractorCallbackImpl, h, hnext, he, Error.encodedError]
  | @idle s e d h hnext he hidle =>
      have hno : ¬ (s ≠ ei.state ∧ ei.error.code = 0) := by
        rintro ⟨hs, h0⟩
        rcases hidle with rfl | hc
        · exact hs rfl
        · exact hc h0
      simp [editInteractorCallbackImpl, h, hnext, he, if_neg hno, Error.encodedError]
  | @failed s e e' d d' r h hnext he hs h0 hact he' =>
      cases r <;>
        simp [editInteractorCallbackImpl, runAction, h, hnext, he, hs, h0, hact, he',
          Error.encodedError]
  | silent h hnext he hs h0 hact he' =>
      simp [editInteractorCallbackImpl, runAction, h, hnext, he, hs, h0, hact, he',
        Error.encodedError]
  | replied h hnext he hs h0 hact he' hw =>
      simp [editInteractorCallbackImpl, runAction, h, hnext, he, hs, h0, hact, he', hw,
        Error.encodedError]

/-- A callback does not return exactly when it calls an `action` that does not, or gets a reply
that it writes without end. -/
theorem callback_eq_error_iff {I : EditInteractor δ} {ei : EditState δ} {c : Call}
    {f : NoReturn} : editInteractorCallbackImpl I ei c = .error f ↔
      (statusToError c.status).toBool = false ∧ ei.error.code = 0 ∧
        ∃ s e d, I.nextState ei.state ei.error ei.data c.status c.args
            (statusToError c.status) = (s, e, d) ∧
          e.toBool = false ∧ s ≠ ei.state ∧
          (I.action s ei.error d e = .error f ∨
            f = .endless ∧ ∃ r e' d', I.action s ei.error d e = .ok (some r, e', d') ∧
              e'.toBool = false ∧ writeReply (.fresh c.attempts) r e' = none) := by
  obtain ⟨⟨s, e, d⟩, hnext⟩ : ∃ n, I.nextState ei.state ei.error ei.data c.status c.args
    (statusToError c.status) = n := ⟨_, rfl⟩
  simp only [editInteractorCallbackImpl, hnext, Prod.mk.injEq]
  cases hst : (statusToError c.status).toBool with
  | true => simp
  | false =>
      cases he : e.toBool with
      | true =>
          simp only [Bool.false_eq_true, if_false, if_true, reduceCtorEq, true_and, false_iff]
          rintro ⟨_, _, _, _, ⟨_, rfl, _⟩, he', _⟩
          exact absurd (he.symm.trans he') (by decide)
      | false =>
          by_cases hact : s ≠ ei.state ∧ ei.error.code = 0
          · rcases ha : I.action s ei.error d e with f' | ⟨_ | r, e', d'⟩
            · simp [runAction, hact, ha, he]
            · simp [runAction, hact, ha, he]
            · cases he' : e'.toBool with
              | true => simp [runAction, hact, ha, he, he']
              | false =>
                  rcases hw : writeReply (.fresh c.attempts) r e' with _ | ⟨e'', fd⟩
                  · have hsymm : NoReturn.endless = f ↔ f = .endless := eq_comm
                    simp [runAction, hact, ha, he, he', hw, hsymm]
                  · simp [runAction, hact, ha, he, he', hw]
          · simp only [Bool.false_eq_true, if_false, if_neg hact, reduceCtorEq, true_and,
              false_iff]
            rintro ⟨h0, _, _, _, ⟨rfl, _⟩, _, hs, _⟩
            exact hact ⟨hs, h0⟩

/-! ## A descriptor that takes everything -/

/-- On a willing descriptor a short reply is one line, whatever its text. -/
theorem writeReply_willing {r : CString} (hr : r.Short) (err : Error) :
    writeReply (.fresh Fd.willing) r err = some (err, ⟨Fd.willing, r.line, false⟩) := by
  have hone : ([newline] : List UInt8).length < 2 ^ 31 := by decide
  have hnl (acc : List UInt8) : writeNewline ⟨Fd.willing, acc, false⟩ err =
      some (err, ⟨Fd.willing, acc ++ [newline], false⟩) := by
    have h := writeAll_willing acc false 0 hone
    rw [List.length_singleton] at h
    simp [writeNewline, h]
  by_cases hempty : r.bytes = []
  · simp [writeReply, Fd.fresh, hempty, hnl, CString.line]
  · have h := writeAll_willing [] false 0 hr
    simp [writeReply, Fd.fresh, hempty, h, hnl, CString.line]

/-- The callback that sends a short reply to a willing descriptor. -/
theorem callback_replied {I : EditInteractor δ} {ei : EditState δ} {st : StatusCode}
    {args : CString} {s : ℕ} {e e' : Error} {d d' : δ} {r : CString}
    (h : (statusToError st).toBool = false)
    (hnext : I.nextState ei.state ei.error ei.data st args (statusToError st) = (s, e, d))
    (he : e.toBool = false) (hs : s ≠ ei.state) (h0 : ei.error.code = 0)
    (hact : I.action s ei.error d e = .ok (some r, e', d')) (he' : e'.toBool = false)
    (hr : r.Short) :
    editInteractorCallbackImpl I ei ⟨st, args, Fd.willing⟩ =
      .ok (⟨ei.error.mErr, ⟨Fd.willing, r.line, false⟩, true⟩, ⟨s, ei.error, d'⟩) := by
  have hcall := (Outcome.replied (c := ⟨st, args, Fd.willing⟩) h hnext he hs h0 hact
    he' (writeReply_willing hr e')).callback_eq
  simpa [he'] using hcall

end Callback

end EditInteractor

end Gpgmepp
