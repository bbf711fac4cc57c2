import Gpgmepp.EditInteractor.SetExpiryTime
import Gpgmepp.EditInteractor.SetOwnerTrust
import Gpgmepp.EditInteractor.AddUserID
import Gpgmepp.EditInteractor.SignKey

/-!
# Failures of an edit

An error reaches the callback from the status line, from `nextState`, from `action`
or from writing the reply.  This module says which of them are recorded and what
follows once one is.

The callback tests errors by their conversion to `bool`, which is false for a
cancellation.  So an error that a subclass reports is recorded unless it is a
cancellation, and a cancellation never is: `recordsReported_iff`.  An error that is
recorded stays: whatever states `nextState` then moves through, `action` is not
called and nothing is written, `failureIsFinal`.

## Main definitions

* `Reports`, `RecordsReported` — errors a subclass reports, and their recording.
* `ReportsWellFormed` — a subclass whose errors are those `gpg_err_make` makes.
* `FailureIsFinal` — nothing happens after a failure.
-/

namespace Gpgmepp.EditInteractor

open StateMachine LibGpgError

variable [LibGpgError] {δ : Type}

theorem statusToError_cases (st : StatusCode) :
    statusToError st = .none ∨
      ∃ n, statusToError st = .fromCode n ∧ n ≠ .noError ∧ n ≠ .canceled := by
  cases st <;>
    first
    | exact .inl rfl
    | exact .inr ⟨_, rfl, by decide, by decide⟩

theorem statusToError_eq_none {st : StatusCode} (h : (statusToError st).toBool = false) :
    statusToError st = .none := by
  rcases statusToError_cases st with h0 | ⟨n, hn, h0, hc⟩
  · exact h0
  · rw [hn, Error.toBool_fromCode h0 hc] at h
    cases h

theorem wellFormed_statusToError (st : StatusCode) : (statusToError st).WellFormed := by
  rcases statusToError_cases st with h0 | ⟨n, hn, h0, _⟩
  · rw [h0]; exact Error.wellFormed_none
  · rw [hn]; exact Error.wellFormed_fromCode h0

/-! ## Writing a reply -/

theorem writeNewline_error {fd fd' : Fd} {err e : Error}
    (h : writeNewline fd err = some (e, fd')) : e = err ∨ ∃ errno, e = .fromSystemError errno := by
  obtain ⟨w, -, hw⟩ := Option.map_eq_some_iff.mp h
  split at hw
  · exact .inr ⟨w.errno, (Prod.mk.inj hw).1.symm⟩
  · exact .inl (Prod.mk.inj hw).1.symm

/-- The writing of a reply leaves `err` alone or puts a system error into it. -/
theorem writeReply_error {fd fd' : Fd} {r : CString} {err e : Error}
    (h : writeReply fd r err = some (e, fd')) : e = err ∨ ∃ errno, e = .fromSystemError errno := by
  unfold writeReply at h
  split at h
  · exact writeNewline_error h
  · obtain ⟨w, -, hw⟩ := Option.bind_eq_some_iff.mp h
    split at hw
    · exact .inr ⟨w.errno, (Prod.mk.inj (Option.some.inj hw)).1.symm⟩
    · exact writeNewline_error hw

/-- What a callback records: the error it has is the old one, or one that counts. -/
theorem error_of_callback {I : EditInteractor δ} {ei ei' : EditState δ} {c : Call} {a : Answer}
    (h : editInteractorCallbackImpl I ei c = .ok (a, ei')) :
    a.ret = ei'.error.mErr ∧ (ei'.error = ei.error ∨ ei'.error.toBool = true) := by
  cases outcome_of_callback h with
  | mapped hst => exact ⟨rfl, .inr hst⟩
  | rejected _ _ he => exact ⟨rfl, .inr he⟩
  | idle => exact ⟨rfl, .inl rfl⟩
  | failed _ _ _ _ _ _ he' => exact ⟨rfl, .inr he'⟩
  | silent => exact ⟨rfl, .inl rfl⟩
  | @replied s e e' d d' r _ _ _ _ _ _ he' e'' fd hw =>
      refine ⟨rfl, ?_⟩
      cases htrue : e''.toBool with
      | true => right; simp [finish, htrue]
      | false => left; simp [finish, htrue]

/-! ## Reported errors -/

/-- During the callback, `nextState`, or the `action` that follows it, reports `e`, an
error with a code, through its `err` parameter. -/
def Reports (I : EditInteractor δ) (ei : EditState δ) (c : Call) (e : Error) : Prop :=
  e.code ≠ 0 ∧
    ∃ s e₁ d, I.nextState ei.state ei.error ei.data c.status c.args .none = (s, e₁, d) ∧
      (e = e₁ ∨ (e₁.toBool = false ∧ s ≠ ei.state ∧
        ∃ r d', I.action s ei.error d e₁ = .ok (r, e, d')))

/-- A reported error stops the callback: nothing is written, the error is the last
error, the state is the error state and the result is not zero. -/
def RecordsReported (I : EditInteractor δ) (ei : EditState δ) (c : Call) : Prop :=
  ∀ e, Reports I ei c e → ∃ a ei', editInteractorCallbackImpl I ei c = .ok (a, ei') ∧
    a.fd.accepted = [] ∧ ei'.error = e ∧ ei'.state = errorState ∧ a.ret ≠ 0

/-- Reported errors are recorded if and only if none of them is a cancellation. -/
theorem recordsReported_iff (I : EditInteractor δ) (ei : EditState δ) (c : Call)
    (h0 : ei.error.code = 0) (hst : (statusToError c.status).toBool = false) :
    RecordsReported I ei c ↔ ∀ e, Reports I ei c e → e.code ≠ number .canceled := by
  constructor
  · intro hrec e he hcancel
    obtain ⟨a, ei', hcall, _, herr, _⟩ := hrec e he
    -- what is recorded is the old error, which has no code, or counts, which `e` does not
    rcases (error_of_callback hcall).2 with hold | htrue
    · rw [herr] at hold
      exact he.1 (hold ▸ h0)
    · rw [herr, Error.toBool_iff] at htrue
      exact htrue.2 hcancel
  · intro hcancel e he
    have htrue : e.toBool = true := Error.toBool_of_code he.1 (hcancel e he)
    have hne : e.mErr ≠ 0 := Error.mErr_ne_zero_of_code he.1
    obtain ⟨_, s, e₁, d, hnext, hwhere⟩ := he
    rw [← statusToError_eq_none hst] at hnext
    rcases hwhere with rfl | ⟨he₁, hs, r, d', hact⟩
    · exact ⟨_, _, (Outcome.rejected hst hnext htrue).callback_eq, rfl, rfl, rfl, hne⟩
    · exact ⟨_, _, (Outcome.failed hst hnext he₁ hs h0 hact htrue).callback_eq, rfl, rfl, rfl,
        hne⟩

omit [LibGpgError] in
/-- A prompt that the interactor for expiry times does not expect at the start. -/
theorem recordsReported_unexpected :
    letI := documented
    RecordsReported (gpgSetExpiryTimeEditInteractor []) (start ())
        ⟨.getLine, .lit "keygen.valid", Fd.willing⟩ ↔
      ∀ e, Reports (gpgSetExpiryTimeEditInteractor []) (start ())
        ⟨.getLine, .lit "keygen.valid", Fd.willing⟩ e → e.code ≠ number .canceled :=
  letI := documented
  recordsReported_iff _ _ _ Error.code_none (by decide)

/-- A subclass whose `nextState` asks for a cancellation at every prompt. -/
def cancelingEditInteractor : EditInteractor Unit where
  nextState _ _ _ _ _ _ := (1, .fromCode .canceled, ())
  action _ _ _ err := .ok (some (.lit "Y"), err, ())

omit [LibGpgError] in
/-- The cancellation is not recorded: the callback answers the prompt and returns zero. -/
theorem not_recordsReported_canceled :
    letI := documented
    ¬ ∀ (I : EditInteractor Unit) (ei : EditState Unit) (c : Call), ei.error.code = 0 →
      (statusToError c.status).toBool = false → RecordsReported I ei c := by
  let := documented
  intro h
  have hrep : Reports cancelingEditInteractor (start ())
      ⟨.getLine, .lit "keyedit.prompt", Fd.willing⟩ (.fromCode .canceled) :=
    ⟨by decide, 1, .fromCode .canceled, (), rfl, .inl rfl⟩
  have hcall : editInteractorCallbackImpl cancelingEditInteractor (start ())
      ⟨.getLine, .lit "keyedit.prompt", Fd.willing⟩ =
        .ok (⟨0, ⟨Fd.willing, (CString.lit "Y").line, false⟩, true⟩, ⟨1, .none, ()⟩) :=
    callback_replied (by decide) rfl (by decide) (by decide) (by decide) rfl (by decide)
      (by decide)
  obtain ⟨a, ei', hcall', hwritten, _⟩ :=
    h cancelingEditInteractor (start ()) ⟨.getLine, .lit "keyedit.prompt", Fd.willing⟩
      (by decide) (by decide) _ hrep
  rw [hcall] at hcall'
  obtain ⟨rfl, -⟩ := Prod.mk.inj (Except.ok.inj hcall')
  exact CString.line_ne_nil _ hwritten

/-! ## After a failure -/

/-- The errors a subclass reports are well formed, provided those it is shown are. -/
structure ReportsWellFormed (I : EditInteractor δ) : Prop where
  nextState : ∀ {s : ℕ} {le err : Error} {d : δ} {st : StatusCode} {args : CString},
    le.WellFormed → err.WellFormed → (I.nextState s le d st args err).2.1.WellFormed
  action : ∀ {s : ℕ} {le err : Error} {d : δ} {r : Option CString × Error × δ},
    le.WellFormed → err.WellFormed → I.action s le d err = .ok r → r.2.1.WellFormed

theorem ReportsWellFormed.of_nextState {I : EditInteractor δ} (hI : ReportsWellFormed I)
    {s s' : ℕ} {le err e : Error} {d d' : δ} {st : StatusCode} {args : CString}
    (hnext : I.nextState s le d st args err = (s', e, d')) (hle : le.WellFormed)
    (herr : err.WellFormed) : e.WellFormed := by
  have h : (I.nextState s le d st args err).2.1.WellFormed := hI.nextState hle herr
  rwa [hnext] at h

/-- One callback after a failure: the failure stays, nothing else happens. -/
theorem failed_step {I : EditInteractor δ} (hI : ReportsWellFormed I) {ei ei' : EditState δ}
    {c : Call} {a : Answer} (h : editInteractorCallbackImpl I ei c = .ok (a, ei'))
    (hfail : ei.error.code ≠ 0) :
    ei'.error.code ≠ 0 ∧ a.acted = false ∧ a.fd.accepted = [] := by
  have hwf : ei.error.WellFormed := fun _ => hfail
  cases outcome_of_callback h with
  | mapped hst => exact ⟨(wellFormed_statusToError _).code_ne_zero hst, rfl, rfl⟩
  | rejected _ hnext he =>
      have hwf' := hI.of_nextState hnext hwf (wellFormed_statusToError c.status)
      exact ⟨hwf'.code_ne_zero he, rfl, rfl⟩
  | idle => exact ⟨hfail, rfl, rfl⟩
  | failed _ _ _ _ h0 => exact absurd h0 hfail
  | silent _ _ _ _ h0 => exact absurd h0 hfail
  | replied _ _ _ _ h0 => exact absurd h0 hfail

/-- Once a callback of the run has returned an error, every later one returns an error,
calls no `action` and writes nothing. -/
def FailureIsFinal (I : EditInteractor δ) (ei : EditState δ) : Prop :=
  ∀ ts t us ei', Run (editInteractorCallbackImpl I) ei (ts ++ t :: us) ei' →
    errCode t.output.ret ≠ 0 →
      ∀ u ∈ us, errCode u.output.ret ≠ 0 ∧ u.output.acted = false ∧ u.output.fd.accepted = []

/-- A failure recorded at the start of a run stays to its end. -/
theorem failed_run {I : EditInteractor δ} (hI : ReportsWellFormed I) {ei ei' : EditState δ}
    {us : List (Transition (EditState δ) Call Answer)}
    (h : Run (editInteractorCallbackImpl I) ei us ei') (hfail : ei.error.code ≠ 0) :
    ei'.error.code ≠ 0 ∧
      ∀ u ∈ us, errCode u.output.ret ≠ 0 ∧ u.output.acted = false ∧
        u.output.fd.accepted = [] := by
  refine Run.absorbing (fun ei : EditState δ => ei.error.code ≠ 0) _ h hfail ?_
  intro m c a m' hm hstep
  obtain ⟨hfail', hacted, hwritten⟩ := failed_step hI hstep hm
  refine ⟨hfail', ?_, hacted, hwritten⟩
  rw [(error_of_callback hstep).1]
  exact hfail'

theorem failureIsFinal_of_reportsWellFormed {I : EditInteractor δ} (hI : ReportsWellFormed I)
    (ei : EditState δ) : FailureIsFinal I ei := by
  intro ts t us ei' hrun hfail
  obtain ⟨_, hstep, hrest⟩ := hrun.cut
  rw [(error_of_callback hstep).1] at hfail
  exact (failed_run hI hrest hfail).2

/-! ## The four interactors -/

/-- The errors an interactor reports: the one it was given, the one recorded before, or
one made from a code. -/
def OwnError (le err e : Error) : Prop :=
  e = err ∨ e = le ∨ ∃ n, n ≠ ErrName.noError ∧ e = .fromCodeUser1 n

theorem OwnError.wellFormed {le err e : Error} (h : OwnError le err e) (hle : le.WellFormed)
    (herr : err.WellFormed) : e.WellFormed := by
  rcases h with rfl | rfl | ⟨n, hn, rfl⟩
  · exact herr
  · exact hle
  · exact Error.wellFormed_fromCode hn

theorem reportsWellFormed_of_ownError {I : EditInteractor δ}
    (hnext : ∀ s le d st args err, OwnError le err (I.nextState s le d st args err).2.1)
    (hact : ∀ s le d err r, I.action s le d err = .ok r → OwnError le err r.2.1) :
    ReportsWellFormed I where
  nextState hle herr := (hnext _ _ _ _ _ _).wellFormed hle herr
  action hle herr h := (hact _ _ _ _ _ h).wellFormed hle herr

theorem ownError_fromCode {le err : Error} {n : ErrName} (h : n ≠ .noError) :
    OwnError le err (.fromCodeUser1 n) := .inr (.inr ⟨n, h, rfl⟩)

theorem reportsWellFormed_setExpiryTime (strtime : StdString) :
    ReportsWellFormed (gpgSetExpiryTimeEditInteractor strtime) := by
  refine reportsWellFormed_of_ownError ?_ ?_
  · intro s le d st args err
    show OwnError le err (GpgSetExpiryTimeEditInteractor.nextState s le st args err).2
    fun_cases GpgSetExpiryTimeEditInteractor.nextState s le st args err <;>
      first
      | exact .inl rfl
      | exact .inr (.inl rfl)
      | exact ownError_fromCode (by decide)
  · rintro s le d err r ⟨⟩
    show OwnError le err (GpgSetExpiryTimeEditInteractor.action strtime s err).2
    fun_cases GpgSetExpiryTimeEditInteractor.action strtime s err <;>
      first
      | exact .inl rfl
      | exact ownError_fromCode (by decide)

theorem reportsWellFormed_setOwnerTrust (ownertrust : OwnerTrust) :
    ReportsWellFormed (gpgSetOwnerTrustEditInteractor ownertrust) := by
  refine reportsWellFormed_of_ownError ?_ ?_
  · intro s le d st args err
    show OwnError le err (GpgSetOwnerTrustEditInteractor.nextState s le st args err).2
    fun_cases GpgSetOwnerTrustEditInteractor.nextState s le st args err <;>
      first
      | exact .inl rfl
      | exact .inr (.inl rfl)
      | exact ownError_fromCode (by decide)
  · rintro s le d err r ⟨⟩
    show OwnError le err (GpgSetOwnerTrustEditInteractor.action ownertrust s err).2
    fun_cases GpgSetOwnerTrustEditInteractor.action ownertrust s err <;>
      first
      | exact .inl rfl
      | exact ownError_fromCode (by decide)

theorem reportsWellFormed_addUserID (m : GpgAddUserIDEditInteractor.UserIDParts) :
    ReportsWellFormed (gpgAddUserIDEditInteractor m) := by
  refine reportsWellFormed_of_ownError ?_ ?_
  · intro s le d st args err
    show OwnError le err (GpgAddUserIDEditInteractor.nextState s le st args err).2
    fun_cases GpgAddUserIDEditInteractor.nextState s le st args err <;>
      first
      | exact .inl rfl
      | exact .inr (.inl rfl)
      | exact ownError_fromCode (by decide)
  · rintro s le d err r ⟨⟩
    show OwnError le err (GpgAddUserIDEditInteractor.action m s err).2
    fun_cases GpgAddUserIDEditInteractor.action m s err <;>
      first
      | exact .inl rfl
      | exact ownError_fromCode (by decide)

theorem reportsWellFormed_signKey (cfg : GpgSignKeyEditInteractor.Config) :
    ReportsWellFormed (gpgSignKeyEditInteractor cfg) := by
  refine reportsWellFormed_of_ownError ?_ ?_
  · intro s le d st args err
    cases hst : needsNoResponse st with
    | true => simp [gpgSignKeyEditInteractor, GpgSignKeyEditInteractor.nextState, hst, OwnError]
    | false =>
        rcases (GpgSignKeyEditInteractor.nextState_cases hst rfl).2 with
          ⟨he, _⟩ | ⟨_, n, hn, _, he⟩ | ⟨_, he, _⟩
        · exact .inl he
        · exact .inr (.inr ⟨n, hn, he⟩)
        · exact .inr (.inl he)
  · rintro s le d err ⟨r, e, d'⟩ hact
    rcases GpgSignKeyEditInteractor.action_cases hact with ⟨rfl, _⟩ | ⟨_, rfl, _⟩
    · exact .inl rfl
    · exact ownError_fromCode (by decide)

/-- **A failed edit is never continued.**  For every subclass whose errors are well
formed, from every state: once a callback has returned an error, every later callback
returns an error, no `action` is called again and nothing more is written, so that none
of the four interactors answers `quit` or confirms the saving after a failure. -/
theorem failureIsFinal :
    (∀ (δ : Type) (I : EditInteractor δ), ReportsWellFormed I → ∀ ei, FailureIsFinal I ei) ∧
      (∀ strtime, FailureIsFinal (gpgSetExpiryTimeEditInteractor strtime) (start ())) ∧
      (∀ ownertrust, FailureIsFinal (gpgSetOwnerTrustEditInteractor ownertrust) (start ())) ∧
      (∀ m, FailureIsFinal (gpgAddUserIDEditInteractor m) (start ())) ∧
      ∀ cfg, FailureIsFinal (gpgSignKeyEditInteractor cfg)
        (start (GpgSignKeyEditInteractor.Data.init cfg)) := by
  refine ⟨fun δ I hI ei => failureIsFinal_of_reportsWellFormed hI ei, ?_, ?_, ?_, ?_⟩
  · exact fun strtime =>
      failureIsFinal_of_reportsWellFormed (reportsWellFormed_setExpiryTime strtime) _
  · exact fun ownertrust =>
      failureIsFinal_of_reportsWellFormed (reportsWellFormed_setOwnerTrust ownertrust) _
  · exact fun m => failureIsFinal_of_reportsWellFormed (reportsWellFormed_addUserID m) _
  · exact fun cfg => failureIsFinal_of_reportsWellFormed (reportsWellFormed_signKey cfg) _

end Gpgmepp.EditInteractor
