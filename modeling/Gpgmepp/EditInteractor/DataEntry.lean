import Gpgmepp.EditInteractor.Dialogues

/-!
# Rejected data

When gpg does not like a date, a name, an email address or a comment, it repeats the prompt for
it.  Each of these items has an error of its own for that case; a prompt that is neither the
repeated one nor the next is a general error.

For the date the source writes `strcmp(args, "keygen.valid")` without `== 0`, so that the two
errors change places: a repeated prompt is a general error, and any other line that gpg asks for
is an invalid time.

## Main definitions

* `DataEntry` — an item, the prompts for it and after it, and its error.
* `Classifies` — the law for the prompt after the item was sent.
* `classifies_iff` — which items and prompts obey it.
-/

namespace Gpgmepp.EditInteractor

open StateMachine LibGpgError

/-- An item that an interactor sends to gpg, with the values the interactor is configured
with. -/
inductive DataEntry
  | date (strtime : StdString)
  | name (m : GpgAddUserIDEditInteractor.UserIDParts)
  | email (m : GpgAddUserIDEditInteractor.UserIDParts)
  | comment (m : GpgAddUserIDEditInteractor.UserIDParts)

namespace DataEntry

/-- The interactor that sends the item. -/
def interactor [LibGpgError] : DataEntry → EditInteractor Unit
  | .date strtime => gpgSetExpiryTimeEditInteractor strtime
  | .name m | .email m | .comment m => gpgAddUserIDEditInteractor m

/-- The state in which it is sent. -/
def state : DataEntry → ℕ
  | .date _ => GpgSetExpiryTimeEditInteractor.date
  | .name _ => GpgAddUserIDEditInteractor.name
  | .email _ => GpgAddUserIDEditInteractor.email
  | .comment _ => GpgAddUserIDEditInteractor.comment

/-- The prompt for the item. -/
def prompt : DataEntry → Message
  | .date _ => getLine "keygen.valid"
  | .name _ => getLine "keygen.name"
  | .email _ => getLine "keygen.email"
  | .comment _ => getLine "keygen.comment"

/-- The prompt that follows when gpg takes the item. -/
def nextPrompt : DataEntry → Message
  | .date _ => getLine "keyedit.prompt"
  | .name _ => getLine "keygen.email"
  | .email _ => getLine "keygen.comment"
  | .comment _ => getLine "keyedit.prompt"

/-- The error for an item that gpg rejects. -/
def itemError : DataEntry → ErrName
  | .date _ => .invTime
  | .name _ => .invName
  | .email _ | .comment _ => .invUserId

end DataEntry

variable [LibGpgError]

/-- The transition ends the edit with an error of this code. -/
def FailsWith (t : Exchange Unit) (n : ErrName) : Prop :=
  t.target.state = errorState ∧ t.target.error.code = number n ∧ errCode t.output.ret = number n

/-- The callback has called `action` in the state of the item, and succeeded. -/
def HasSent (e : DataEntry) (t : Exchange Unit) : Prop :=
  t.output.acted = true ∧ t.output.ret = 0 ∧ t.target.state = e.state

/-- **The law for the prompt after an item**: the edit fails with the error of the item exactly
if the prompt is repeated, and with a general error if the prompt is not the next one either.  A
status that is an error by itself is that error. -/
structure Classifies (e : DataEntry) (t : Exchange Unit) : Prop where
  rejected : FailsWith t e.itemError ↔ message t = e.prompt
  unexpected : message t ≠ e.prompt → message t ≠ e.nextPrompt → isError (message t) = false →
    FailsWith t .general
  mapped : isError (message t) = true →
    t.target.state = errorState ∧ t.target.error = statusToError t.input.status

/-! ## The prompt after an item -/

omit [LibGpgError] in
/-- The prompt that is repeated is not the next one. -/
theorem DataEntry.prompt_ne_nextPrompt (e : DataEntry) : e.prompt ≠ e.nextPrompt := by
  cases e <;> simp only [prompt, nextPrompt] <;> decide

/-- The error that the sources have for a prompt other than the next one. -/
def DataEntry.reported (e : DataEntry) (m : Message) : ErrName :=
  match e with
  | .date _ => if m.1 = .getLine ∧ m.2 ≠ .lit "keygen.valid" then .invTime else .general
  | e => if m = e.prompt then e.itemError else .general

/-- The next prompt moves to a state with a reply. -/
theorem DataEntry.nextState_nextPrompt (e : DataEntry) (le err : Error) :
    ∃ s r, s ≠ e.state ∧ s ≠ errorState ∧
      e.interactor.nextState e.state le () e.nextPrompt.1 e.nextPrompt.2 err = (s, err, ()) ∧
      e.interactor.action s le () err = .ok (some r, err, ()) := by
  cases e with
  | date strtime => exact ⟨3, _, by simp [state], by decide, rfl, rfl⟩
  | name m => exact ⟨3, _, by simp [state], by decide, rfl, rfl⟩
  | email m => exact ⟨4, _, by simp [state], by decide, rfl, rfl⟩
  | comment m => exact ⟨5, _, by simp [state], by decide, rfl, rfl⟩

/-- Any other prompt is an error. -/
theorem DataEntry.nextState_other (e : DataEntry) (le err : Error) {m : Message}
    (hresp : needsNoResponse m.1 = false) (hm : m ≠ e.nextPrompt) :
    e.interactor.nextState e.state le () m.1 m.2 err =
      (errorState, .fromCodeUser1 (e.reported m), ()) := by
  obtain ⟨st, args⟩ := m
  cases e with
  | date strtime =>
      simp only [nextPrompt, getLine, ne_eq, Prod.mk.injEq] at hm
      simp only [interactor, gpgSetExpiryTimeEditInteractor, state, reported]
      rw [GpgSetExpiryTimeEditInteractor.nextState, if_neg (by simp [hresp]),
        if_neg (by decide), if_neg (by decide), if_pos rfl, if_neg hm]
      split <;> rfl
  | name m =>
      simp only [nextPrompt, getLine, ne_eq, Prod.mk.injEq] at hm
      simp only [interactor, gpgAddUserIDEditInteractor, state, reported, prompt, getLine,
        Prod.mk.injEq]
      rw [GpgAddUserIDEditInteractor.nextState, if_neg (by simp [hresp]),
        if_neg (by decide), if_neg (by decide), if_pos rfl, if_neg hm]
      split <;> exact ⟨rfl, rfl, trivial⟩
  | email m =>
      simp only [nextPrompt, getLine, ne_eq, Prod.mk.injEq] at hm
      simp only [interactor, gpgAddUserIDEditInteractor, state, reported, prompt, getLine,
        Prod.mk.injEq]
      rw [GpgAddUserIDEditInteractor.nextState, if_neg (by simp [hresp]),
        if_neg (by decide), if_neg (by decide), if_neg (by decide), if_pos rfl, if_neg hm]
      split <;> exact ⟨rfl, rfl, trivial⟩
  | comment m =>
      simp only [nextPrompt, getLine, ne_eq, Prod.mk.injEq] at hm
      simp only [interactor, gpgAddUserIDEditInteractor, state, reported, prompt, getLine,
        Prod.mk.injEq]
      rw [GpgAddUserIDEditInteractor.nextState, if_neg (by simp [hresp]),
        if_neg (by decide), if_neg (by decide), if_neg (by decide), if_neg (by decide),
        if_pos rfl, if_neg hm]
      split <;> exact ⟨rfl, rfl, trivial⟩

theorem DataEntry.toBool_reported (e : DataEntry) (m : Message) :
    (Error.fromCodeUser1 (e.reported m)).toBool = true := by
  cases e <;> simp only [reported, itemError] <;> split <;>
    exact Error.toBool_fromCode (by decide) (by decide)

/-- A status that is no prompt leaves the interactor as it is. -/
theorem DataEntry.callback_quiet (e : DataEntry) {ei ei' : EditState Unit} {c : Call} {a : Answer}
    (hq : concerns (c.status, c.args) = false)
    (hcall : editInteractorCallbackImpl e.interactor ei c = .ok (a, ei')) : ei' = ei := by
  obtain ⟨hresp, herr⟩ : needsNoResponse c.status = true ∧
      (statusToError c.status).toBool = false := by
    simpa [concerns, needsResponse, isError] using hq
  have hst := statusToError_eq_none herr
  have hnext : e.interactor.nextState ei.state ei.error ei.data c.status c.args
      (statusToError c.status) = (ei.state, .none, ei.data) := by
    cases e <;>
      simp [interactor, gpgSetExpiryTimeEditInteractor, gpgAddUserIDEditInteractor,
        GpgSetExpiryTimeEditInteractor.nextState, GpgAddUserIDEditInteractor.nextState, hresp, hst]
  have hidle := (Outcome.idle herr hnext Error.toBool_none (.inl rfl)).callback_eq
  exact (Prod.mk.inj (Except.ok.inj (hcall.symm.trans hidle))).2

/-- After the item was sent no error is recorded. -/
theorem HasSent.target {e : DataEntry} {t : Exchange Unit} (h : HasSent e t)
    (hcall : editInteractorCallbackImpl e.interactor t.source t.input = .ok (t.output, t.target)) :
    t.target = ⟨e.state, .none, ()⟩ := by
  obtain ⟨-, hret, hstate⟩ := h
  have hzero : t.target.error.mErr = 0 := (error_of_callback hcall).1.symm.trans hret
  obtain ⟨source, input, output, ⟨state, ⟨mErr⟩, data⟩⟩ := t
  obtain rfl : state = e.state := hstate
  obtain rfl : mErr = 0 := hzero
  rfl

/-- **The prompt after an item, one callback**: a status that is an error is that error, the next
prompt is no error, or one of the system, and any other prompt is the error of the sources. -/
theorem DataEntry.callback_cases (e : DataEntry) {c : Call} {a : Answer} {ei' : EditState Unit}
    (hresp : needsNoResponse c.status = false)
    (hcall : editInteractorCallbackImpl e.interactor ⟨e.state, .none, ()⟩ c = .ok (a, ei')) :
    ((statusToError c.status).toBool = true ∧
        ei' = ⟨errorState, statusToError c.status, ()⟩) ∨
      ((statusToError c.status).toBool = false ∧ (c.status, c.args) = e.nextPrompt ∧
        (ei'.state ≠ errorState ∨ ∃ errno, ei'.error = .fromSystemError errno)) ∨
      ((statusToError c.status).toBool = false ∧ (c.status, c.args) ≠ e.nextPrompt ∧
        ei' = ⟨errorState, .fromCodeUser1 (e.reported (c.status, c.args)), ()⟩) := by
  cases hst : (statusToError c.status).toBool with
  | true =>
      have hmapped : Outcome e.interactor ⟨e.state, .none, ()⟩ c _ _ := .mapped hst
      have heq := Except.ok.inj (hcall.symm.trans hmapped.callback_eq)
      exact .inl ⟨rfl, (Prod.mk.inj heq).2⟩
  | false =>
      right
      by_cases hm : (c.status, c.args) = e.nextPrompt
      · left
        obtain ⟨s, r, hs, herrorState, hnext, hact⟩ :=
          e.nextState_nextPrompt .none (statusToError c.status)
        rw [← hm] at hnext
        rcases hw : writeReply (.fresh c.attempts) r (statusToError c.status) with _ | ⟨e'', fd⟩
        · -- then the callback does not return
          have hendless : editInteractorCallbackImpl e.interactor ⟨e.state, .none, ()⟩ c =
              .error .endless :=
            callback_eq_error_iff.mpr ⟨hst, Error.code_none, s, _, (), hnext, hst, hs,
              .inr ⟨rfl, r, _, (), hact, hst, hw⟩⟩
          cases hcall.symm.trans hendless
        · have hreplied : Outcome e.interactor ⟨e.state, .none, ()⟩ c _ _ :=
            .replied hst hnext hst hs Error.code_none hact hst hw
          obtain ⟨-, rfl⟩ := Prod.mk.inj (Except.ok.inj (hcall.symm.trans hreplied.callback_eq))
          refine ⟨rfl, hm, ?_⟩
          rcases writeReply_error hw with rfl | ⟨errno, rfl⟩
          · left
            rw [finish_of_not hst]
            exact herrorState
          · right
            rw [finish_of_toBool (Error.toBool_fromSystemError errno)]
            exact ⟨errno, rfl⟩
      · right
        have hnext := e.nextState_other .none (statusToError c.status)
          (m := (c.status, c.args)) hresp hm
        have hrejected : Outcome e.interactor ⟨e.state, .none, ()⟩ c _ _ :=
          .rejected hst hnext (e.toBool_reported _)
        have heq := Except.ok.inj (hcall.symm.trans hrejected.callback_eq)
        exact ⟨rfl, hm, (Prod.mk.inj heq).2⟩

omit [LibGpgError] in
/-- The error of the sources is the right one, but for the lines asked for after a date. -/
theorem DataEntry.reported_iff (e : DataEntry) (m : Message) (hm : m ≠ e.nextPrompt) :
    ((e.reported m = e.itemError ↔ m = e.prompt) ∧ (m ≠ e.prompt → e.reported m = .general)) ↔
      ¬ ((∃ strtime, e = .date strtime) ∧ m.1 = .getLine) := by
  obtain ⟨st, args⟩ := m
  cases e with
  | date strtime =>
      by_cases hst : st = .getLine
      · subst hst
        by_cases hargs : args = .lit "keygen.valid"
        · simp [reported, itemError, prompt, getLine, hargs]
        · simp [reported, itemError, prompt, getLine, hargs]
      · simp [reported, itemError, prompt, getLine, hst]
  | name _ | email _ | comment _ =>
      simp only [reported, reduceCtorEq, exists_const, false_and, not_false_eq_true, iff_true]
      constructor
      · split
        · next h => simp [h]
        · next h => simp [h, itemError]
      · intro h
        rw [if_neg h]

/-- The status that needs a response and is an error. -/
theorem status_of_mapped {st : StatusCode} (hresp : needsNoResponse st = false)
    (hst : (statusToError st).toBool = true) : st = .alreadySigned := by
  cases st with
  | alreadySigned => rfl
  | missingPassphrase | sigExpired | other => cases hresp
  | error | getBool | getLine | keyCreated | needPassphraseSym | scOpFailure =>
      exact absurd (hst.symm.trans Error.toBool_none) (by simp)

/-- An edit that ends with one code ends with no other. -/
theorem failsWith_iff {e : DataEntry} {t : Exchange Unit} {src : UInt32} {n n' : ErrName}
    (hcall : editInteractorCallbackImpl e.interactor t.source t.input = .ok (t.output, t.target))
    (h : t.target = ⟨errorState, .fromCodeOf src n', ()⟩) : FailsWith t n ↔ n' = n := by
  have hret : errCode t.output.ret = (Error.fromCodeOf src n').code := by
    rw [(error_of_callback hcall).1, h]
    rfl
  rw [FailsWith, hret, h]
  simp only [Error.code_fromCode, true_and, and_self]
  exact ⟨fun heq => number_injective heq, fun heq => by rw [heq]⟩

/-- A status that is an error is no line that gpg asks for. -/
theorem classifies_of_mapped {e : DataEntry} {u : Exchange Unit}
    (hcall : editInteractorCallbackImpl e.interactor u.source u.input = .ok (u.output, u.target))
    (hresp : needsNoResponse u.input.status = false)
    (hst : (statusToError u.input.status).toBool = true)
    (htarget : u.target = ⟨errorState, statusToError u.input.status, ()⟩) :
    Classifies e u ∧ u.input.status ≠ .getLine := by
  have hstatus := status_of_mapped hresp hst
  have hne : message u ≠ e.prompt := by
    rw [message, hstatus]
    cases e <;> exact fun h => by cases (Prod.mk.inj h).1
  have hfails : FailsWith u e.itemError ↔ ErrName.alreadySigned = e.itemError := by
    apply failsWith_iff hcall
    rw [htarget, hstatus]
    rfl
  have hother : ErrName.alreadySigned ≠ e.itemError := by
    cases e <;> simp [DataEntry.itemError]
  refine ⟨⟨?_, ?_, ?_⟩, ?_⟩
  · exact iff_of_false (fun h => hother (hfails.mp h)) hne
  · intro _ _ hfalse
    exact absurd (hst.symm.trans hfalse) (by simp)
  · exact fun _ => by rw [htarget]; exact ⟨rfl, rfl⟩
  · intro hline
    exact absurd (hstatus.symm.trans hline) (by simp)

/-- At the next prompt the edit goes on, unless the next item cannot be written. -/
theorem classifies_of_nextPrompt {e : DataEntry} {u : Exchange Unit}
    (hsystem : ∀ errno, codeFromSyserror errno ≠ number e.itemError)
    (hst : (statusToError u.input.status).toBool = false) (hm : message u = e.nextPrompt)
    (hnofail : u.target.state ≠ errorState ∨ ∃ errno, u.target.error = .fromSystemError errno) :
    Classifies e u := by
  refine ⟨?_, ?_, ?_⟩
  · refine iff_of_false ?_ fun h => e.prompt_ne_nextPrompt (h.symm.trans hm)
    rintro ⟨hstate, hcode, -⟩
    rcases hnofail with hne | ⟨errno, herr⟩
    · exact hne hstate
    · rw [herr, Error.code_fromSystemError] at hcode
      exact hsystem errno hcode
  · exact fun _ hne => absurd hm hne
  · exact fun htrue => absurd (hst.symm.trans htrue) (by simp)

/-- At any other prompt the edit fails with the error of the sources. -/
theorem classifies_iff_of_reported {e : DataEntry} {u : Exchange Unit}
    (hcall : editInteractorCallbackImpl e.interactor u.source u.input = .ok (u.output, u.target))
    (hst : (statusToError u.input.status).toBool = false) (hm : message u ≠ e.nextPrompt)
    (htarget : u.target = ⟨errorState, .fromCodeUser1 (e.reported (message u)), ()⟩) :
    Classifies e u ↔ ¬ ((∃ strtime, e = .date strtime) ∧ u.input.status = .getLine) := by
  have hfails := fun n => failsWith_iff (n := n) hcall htarget
  have hiff := e.reported_iff (message u) hm
  constructor
  · rintro ⟨hrejected, hunexpected, -⟩
    refine hiff.mp ⟨?_, ?_⟩
    · exact (hfails _).symm.trans hrejected
    · exact fun hne => (hfails _).mp (hunexpected hne hm hst)
  · intro hcond
    obtain ⟨hrejected, hunexpected⟩ := hiff.mpr hcond
    refine ⟨(hfails _).trans hrejected, ?_, ?_⟩
    · exact fun hne _ _ => (hfails _).mpr (hunexpected hne)
    · exact fun htrue => absurd (hst.symm.trans htrue) (by simp)

/-- The law for a callback in the state of the item. -/
theorem classifies_iff_of_source (e : DataEntry)
    (hsystem : ∀ errno, codeFromSyserror errno ≠ number e.itemError) {u : Exchange Unit}
    (hsource : u.source = ⟨e.state, .none, ()⟩)
    (hcall : editInteractorCallbackImpl e.interactor u.source u.input = .ok (u.output, u.target))
    (hprompt : needsResponse (message u) = true) :
    Classifies e u ↔ ((∃ strtime, e = .date strtime) → u.input.status = .getLine →
      message u = e.nextPrompt) := by
  have hresp : needsNoResponse u.input.status = false := by
    simpa [needsResponse, message] using hprompt
  rcases e.callback_cases hresp (hsource ▸ hcall) with
    ⟨hst, htarget⟩ | ⟨hst, hm, hnofail⟩ | ⟨hst, hm, htarget⟩
  · obtain ⟨hlaw, hline⟩ := classifies_of_mapped hcall hresp hst htarget
    exact iff_of_true hlaw fun _ h => absurd h hline
  · exact iff_of_true (classifies_of_nextPrompt hsystem hst hm hnofail) fun _ _ => hm
  · rw [classifies_iff_of_reported hcall hst hm htarget]
    exact ⟨fun h hdate hline => absurd ⟨hdate, hline⟩ h, fun h hcond => hm (h hcond.1 hcond.2)⟩

/-- After an item was sent, and until gpg prompts again, the interactor stays where it is. -/
theorem source_eq_of_run {e : DataEntry} {pre quiet post : List (Exchange Unit)}
    {t u : Exchange Unit} {ei' : EditState Unit}
    (hrun : Run (editInteractorCallbackImpl e.interactor) (start ())
      (pre ++ t :: (quiet ++ u :: post)) ei')
    (hsent : HasSent e t) (hquiet : ∀ q ∈ quiet, concerns (message q) = false) :
    u.source = ⟨e.state, .none, ()⟩ ∧
      editInteractorCallbackImpl e.interactor u.source u.input = .ok (u.output, u.target) := by
  obtain ⟨-, hstep, hrest⟩ := hrun.cut
  obtain ⟨hquietRun, hcall, -⟩ := hrest.cut
  have hsame : u.source = t.target := by
    refine hquietRun.invariant_of (fun ei => ei = t.target) _ rfl hquiet ?_
    intro ei c a ei' hei hcall hq
    exact (e.callback_quiet hq hcall).trans hei
  exact ⟨hsame.trans (hsent.target hstep), hcall⟩

/-- **The prompt after an item gets the right error exactly if** the item is no date, or the
prompt asks for no line, or is the next one. -/
theorem classifies_iff (e : DataEntry)
    (hsystem : ∀ errno, codeFromSyserror errno ≠ number e.itemError)
    {pre quiet post : List (Exchange Unit)} {t u : Exchange Unit} {ei' : EditState Unit}
    (hrun : Run (editInteractorCallbackImpl e.interactor) (start ())
      (pre ++ t :: (quiet ++ u :: post)) ei')
    (hsent : HasSent e t) (hquiet : ∀ q ∈ quiet, concerns (message q) = false)
    (hprompt : needsResponse (message u) = true) :
    Classifies e u ↔ ((∃ strtime, e = .date strtime) → u.input.status = .getLine →
      message u = e.nextPrompt) := by
  obtain ⟨hsource, hcall⟩ := source_eq_of_run hrun hsent hquiet
  exact classifies_iff_of_source e hsystem hsource hcall hprompt

/-- A run in which a date was sent, and gpg says one thing more. -/
theorem exists_run_date {strtime : StdString} (h : (CString.cStr strtime).Short) (m : Message) :
    ∃ t u v ei', Run (editInteractorCallbackImpl (DataEntry.date strtime).interactor) (start ())
      ([t] ++ u :: ([] ++ v :: [])) ei' ∧ HasSent (.date strtime) u ∧ message v = m := by
  have hcommand : editInteractorCallbackImpl (gpgSetExpiryTimeEditInteractor strtime) (start ())
      (serve (getLine "keyedit.prompt")) =
        .ok (⟨0, ⟨Fd.willing, (CString.lit "expire").line, false⟩, true⟩, ⟨1, .none, ()⟩) :=
    callback_replied Error.toBool_none rfl Error.toBool_none (by simp [start, startState])
      Error.code_none rfl Error.toBool_none (by decide)
  have hdate : editInteractorCallbackImpl (gpgSetExpiryTimeEditInteractor strtime) ⟨1, .none, ()⟩
      (serve (getLine "keygen.valid")) =
        .ok (⟨0, ⟨Fd.willing, (CString.cStr strtime).line, false⟩, true⟩, ⟨2, .none, ()⟩) :=
    callback_replied Error.toBool_none rfl Error.toBool_none (by simp) Error.code_none rfl
      Error.toBool_none h
  obtain ⟨a, ei', hlast⟩ := (responsive_setExpiryTime h).exists_callback ⟨2, .none, ()⟩ m
  exact ⟨_, _, _, _, .cons hcommand (.cons hdate (.single hlast)), ⟨rfl, rfl, rfl⟩, rfl⟩

omit [LibGpgError] in
/-- The library has no code of the system for an invalid time. -/
theorem documented_codeFromSyserror_ne_invTime :
    letI := documented
    ∀ errno, codeFromSyserror errno ≠ number .invTime := by
  let := documented
  intro errno heq
  have h := congrArg UInt32.toNat heq
  simp only [codeFromSyserror, number] at h
  split at h <;> simp only [UInt32.toNat_ofNat', order] at h <;> omega

omit [LibGpgError] in
/-- The end of the dialogue for a date. -/
theorem classifies_quit :
    letI := documented
    ∃ u, message u = getLine "keyedit.prompt" ∧
      (Classifies (.date (ascii "0")) u ↔
        ((∃ strtime, DataEntry.date (ascii "0") = .date strtime) → u.input.status = .getLine →
          message u = (DataEntry.date (ascii "0")).nextPrompt)) := by
  let := documented
  have hshort : (CString.cStr (ascii "0")).Short := by decide
  obtain ⟨t, u, v, ei', hrun, hsent, hm⟩ := exists_run_date hshort (getLine "keyedit.prompt")
  exact ⟨v, hm, classifies_iff (.date (ascii "0")) documented_codeFromSyserror_ne_invTime hrun
    hsent (by simp) (by rw [hm]; rfl)⟩

omit [LibGpgError] in
/-- A repeated prompt for a date is a general error. -/
theorem not_classifies_repeated :
    letI := documented
    ¬ ∀ (e : DataEntry) (pre quiet post : List (Exchange Unit)) (t u : Exchange Unit)
      (ei' : EditState Unit), Run (editInteractorCallbackImpl e.interactor) (start ())
        (pre ++ t :: (quiet ++ u :: post)) ei' → HasSent e t →
      (∀ q ∈ quiet, concerns (message q) = false) → needsResponse (message u) = true →
      Classifies e u := by
  let := documented
  intro h
  have hshort : (CString.cStr (ascii "0")).Short := by decide
  obtain ⟨t, u, v, ei', hrun, hsent, hm⟩ := exists_run_date hshort (getLine "keygen.valid")
  have hprompt : needsResponse (message v) = true := by rw [hm]; rfl
  obtain ⟨hsource, hcall⟩ := source_eq_of_run hrun hsent (by simp)
  have hnext := (classifies_iff_of_source (.date (ascii "0"))
    documented_codeFromSyserror_ne_invTime hsource hcall hprompt).mp
      (h _ _ _ _ _ _ _ hrun hsent (by simp) hprompt) ⟨_, rfl⟩ (congrArg Prod.fst hm)
  exact absurd (hm.symm.trans hnext) (DataEntry.prompt_ne_nextPrompt (.date (ascii "0")))

end Gpgmepp.EditInteractor
