import Gpgmepp.EditInteractor.Failure
import Gpgmepp.Lib.Dialogue

/-!
# Interactors that follow a script

What an edit interactor is for is a dialogue: gpg prompts, the interactor gives the
scripted reply, and anything off the script ends the edit.  Here the callback, run
on a descriptor that takes everything, is shown to refine a performer of such
dialogues.  The status lines that need no response and are no error do not take part
in the dialogue; of the others, each is a prompt.

`FollowsScripts` is what a subclass has to provide: a relation between its states and
the scripts still open that satisfies the simulation of the dialogue library.
`FollowsScripts.speaksDialogue` is what it gets: the callbacks all succeed exactly for
the beginnings of the scripts, and the replies are those of the longest such beginning.
A subclass has to be `Responsive` for it: a reply that is too long for an `int` fails even
when all of it is taken.

## Main definitions

* `Message`, `serve` — status lines, and callbacks with a willing descriptor.
* `respond` — the performer that the callback implements.
* `SpeaksDialogue` — the law of the dialogue.
* `Responsive` — a subclass whose replies can all be sent.
* `FollowsScripts`, `FollowsScripts.speaksDialogue` — how to prove it.
* `OpenScripts` — the same for interactors that keep nothing but their state.
-/

namespace Gpgmepp.EditInteractor

open StateMachine Dialogue LibGpgError

/-- A status line. -/
abbrev Message := StatusCode × CString

/-- A `GET_LINE` prompt. -/
def getLine (prompt : String) : Message := (.getLine, .lit prompt)

/-- A `GET_BOOL` prompt. -/
def getBool (prompt : String) : Message := (.getBool, .lit prompt)

/-- The callback for a status line, each write taking all that it is offered. -/
def serve (m : Message) : Call := ⟨m.1, m.2, Fd.willing⟩

/-- The reply scripts: prompts with the lines to be sent. -/
abbrev Script := List (Message × List UInt8)

variable [LibGpgError] {δ : Type}

/-- The status line is an error by itself. -/
def isError (m : Message) : Bool := (statusToError m.1).toBool

omit [LibGpgError] in
/-- The status line needs a response. -/
def needsResponse (m : Message) : Bool := !needsNoResponse m.1

/-- The status line takes part in the dialogue: it is a prompt or an error. -/
def concerns (m : Message) : Bool := needsResponse m || isError m

/-- The transitions of a run of callbacks. -/
abbrev Exchange (δ : Type) := Transition (EditState δ) Call Answer

omit [LibGpgError] in
/-- The bytes the callback sent to gpg. -/
def sent (t : Exchange δ) : List UInt8 := t.output.fd.accepted

omit [LibGpgError] in
/-- The message of a callback. -/
def message (t : Exchange δ) : Message := (t.input.status, t.input.args)

/-- **The law of a dialogue** with the scripts `ds`.  On every sequence of status lines
the interactor runs to the end, and

* all callbacks return zero exactly if no status is an error and the prompts begin one
  of the scripts;
* the prompts, up to the longest beginning of a script, get the replies of that script
  in order and one each, and the later ones get none;
* nothing is sent for a status line that is not part of the dialogue. -/
def SpeaksDialogue (I : EditInteractor δ) (ei : EditState δ) (ds : List Script) : Prop :=
  ∀ ms : List Message, ∃ ts ei', Run (editInteractorCallbackImpl I) ei ts ei' ∧
    ts.map Transition.input = ms.map serve ∧
    ((∀ t ∈ ts, t.output.ret = 0) ↔
      (∀ m ∈ ms, isError m = false) ∧ Accepts ds (ms.filter needsResponse)) ∧
    (∃ pre suf, ms.filter concerns = pre ++ suf ∧ Accepts ds pre ∧
      (∀ p rest, suf = p :: rest → ¬ Accepts ds (pre ++ [p])) ∧
      ∀ d ∈ ds, pre <+: d.map Prod.fst →
        (ts.filter fun t => concerns (message t)).map sent =
          (d.take pre.length).map Prod.snd ++ List.replicate suf.length []) ∧
    ∀ t ∈ ts, concerns (message t) = false → sent t = []

/-- The performer that a subclass and the callback make together: a prompt is answered
with a line, or refused by an error.  What is not part of the dialogue is no prompt. -/
def respond (I : EditInteractor δ) (ei : EditState δ) (m : Message) :
    Option (List UInt8 × EditState δ) :=
  match editInteractorCallbackImpl I ei (serve m) with
  | .ok (a, ei') => if a.ret = 0 ∧ concerns m = true then some (a.fd.accepted, ei') else none
  | .error _ => none

/-- A subclass that has a reply for gpg, or none, in every state. -/
structure Responsive (I : EditInteractor δ) : Prop where
  wellFormed : ReportsWellFormed I
  /-- Its assertions do not fail. -/
  total : ∀ s le d err, ∃ r, I.action s le d err = .ok r
  /-- Its replies can be counted. -/
  short : ∀ {s le d err r e d'}, I.action s le d err = .ok (some r, e, d') → r.Short

/-- A relation between the states of a subclass and the scripts open in them, that the
subclass follows. -/
structure FollowsScripts (I : EditInteractor δ) (R : EditState δ → List Script → Prop) :
    Prop where
  responsive : Responsive I
  /-- No error is recorded while scripts are open. -/
  clear : ∀ {ei ds}, R ei ds → ei.error = .none
  /-- A status that needs no response changes nothing. -/
  ignores : ∀ {ei ds st args}, R ei ds → needsNoResponse st = true →
    I.nextState ei.state ei.error ei.data st args .none = (ei.state, .none, ei.data)
  /-- No script prompts with an error. -/
  noError : ∀ {ei ds d p a}, R ei ds → d ∈ ds → (p, a) ∈ d → isError p = false
  follows : Follows (respond I) R

/-! ## One callback -/

/-- A responsive subclass answers every callback. -/
theorem Responsive.exists_callback {I : EditInteractor δ} (hI : Responsive I) (ei : EditState δ)
    (m : Message) : ∃ a ei', editInteractorCallbackImpl I ei (serve m) = .ok (a, ei') := by
  cases hcall : editInteractorCallbackImpl I ei (serve m) with
  | ok r => exact ⟨r.1, r.2, rfl⟩
  | error f =>
      obtain ⟨-, -, s, e, d, -, -, -, hact | ⟨-, r, e', d', hact, -, hw⟩⟩ :=
        callback_eq_error_iff.mp hcall
      · obtain ⟨r, hr⟩ := hI.total s ei.error d e
        cases hr.symm.trans hact
      · cases (writeReply_willing (hI.short hact) e').symm.trans hw

theorem respond_eq_some {I : EditInteractor δ} {ei ei' : EditState δ} {m : Message}
    {l : List UInt8} {a : Answer} (hm : concerns m = true)
    (h : editInteractorCallbackImpl I ei (serve m) = .ok (a, ei')) (ha : a.ret = 0)
    (hl : a.fd.accepted = l) : respond I ei m = some (l, ei') := by
  simp [respond, h, hm, ha, hl]

theorem respond_eq_none {I : EditInteractor δ} {ei ei' : EditState δ} {m : Message} {a : Answer}
    (h : editInteractorCallbackImpl I ei (serve m) = .ok (a, ei')) (ha : a.ret ≠ 0) :
    respond I ei m = none := by
  simp [respond, h, ha]

theorem respond_of_not_concerns {I : EditInteractor δ} {ei : EditState δ} {m : Message}
    (hm : concerns m = false) : respond I ei m = none := by
  simp only [respond, hm]
  split <;> simp

/-- A status that is an error is refused in every state. -/
theorem respond_isError (I : EditInteractor δ) (ei : EditState δ) {m : Message}
    (h : isError m = true) : respond I ei m = none :=
  respond_eq_none (Outcome.mapped (c := serve m) h).callback_eq (Error.toBool_iff.mp h).1

/-- A prompt that `nextState` rejects is refused. -/
theorem respond_rejected {I : EditInteractor δ} {ei : EditState δ} {m : Message} {s : ℕ}
    {e : Error} {d : δ} (hnext : I.nextState ei.state ei.error ei.data m.1 m.2 .none = (s, e, d))
    (he : e.toBool = true) : respond I ei m = none := by
  cases hm : isError m with
  | true => exact respond_isError I ei hm
  | false =>
      rw [← statusToError_eq_none hm] at hnext
      exact respond_eq_none (Outcome.rejected (c := serve m) hm hnext he).callback_eq
        (Error.toBool_iff.mp he).1

/-- A prompt that moves to a state with a reply gets it. -/
theorem respond_replied {I : EditInteractor δ} {ei : EditState δ} {m : Message} {s : ℕ}
    {d d' : δ} {r : CString} (hresp : needsResponse m = true) (hm : isError m = false)
    (hclear : ei.error = .none)
    (hnext : I.nextState ei.state ei.error ei.data m.1 m.2 .none = (s, .none, d))
    (hs : s ≠ ei.state) (hact : I.action s ei.error d .none = .ok (some r, .none, d'))
    (hr : r.Short) : respond I ei m = some (r.line, ⟨s, .none, d'⟩) := by
  have h0 : ei.error.code = 0 := by rw [hclear]; exact Error.code_none
  have hst : statusToError m.1 = .none := statusToError_eq_none hm
  have hcall := callback_replied hm (by rw [hst]; exact hnext) Error.toBool_none hs h0 hact
    Error.toBool_none hr
  rw [hclear] at hcall
  exact respond_eq_some (by simp [concerns, hresp]) hcall rfl rfl

/-- A reply that is too long for an `int` fails, although all of it is taken. -/
theorem writeReply_long {r : CString} (hr : ¬ r.Short) {fd fd' : Fd} {err e : Error}
    (h : writeReply fd r err = some (e, fd')) : ∃ errno, e = .fromSystemError errno := by
  have hlong : 2 ^ 31 ≤ r.bytes.length := by simpa [CString.Short] using hr
  have hne : r.bytes ≠ [] := by
    intro hnil
    rw [hnil] at hlong
    exact absurd hlong (by decide)
  rw [writeReply, if_neg hne] at h
  obtain ⟨w, hw, hend⟩ := Option.bind_eq_some_iff.mp h
  have hlt : w.ret < 2 ^ 31 := ret_writeAllLoop_lt hw
  rw [if_pos (by omega)] at hend
  exact ⟨w.errno, (Prod.mk.inj (Option.some.inj hend)).1.symm⟩

/-- A reply that was sent with success is short. -/
theorem short_of_callback {I : EditInteractor δ} {ei ei' : EditState δ} {m : Message} {a : Answer}
    {r : CString} (hcall : editInteractorCallbackImpl I ei (serve m) = .ok (a, ei'))
    (hret : a.ret = 0) (hsent : a.fd.accepted = r.line) : r.Short := by
  cases outcome_of_callback hcall with
  | mapped | rejected | idle | failed | silent => exact absurd hsent.symm r.line_ne_nil
  | @replied s e e' d d' r' _ _ _ _ _ _ _ e'' fd hw =>
      by_cases hshort : r'.Short
      · obtain ⟨-, rfl⟩ := Prod.mk.inj
          (Option.some.inj (hw.symm.trans (writeReply_willing hshort e')))
        obtain rfl : r' = r := CString.bytes_inj.mp (List.append_left_injective _ hsent)
        exact hshort
      · obtain ⟨errno, rfl⟩ := writeReply_long hshort hw
        have htrue := Error.toBool_fromSystemError errno
        rw [finish_of_toBool htrue] at hret
        exact absurd hret (Error.toBool_iff.mp htrue).1

/-- A status that is not part of the dialogue changes nothing. -/
theorem callback_quiet {I : EditInteractor δ} {R : EditState δ → List Script → Prop}
    (F : FollowsScripts I R) {ei : EditState δ} {ds : List Script} (h : R ei ds) {m : Message}
    (hm : concerns m = false) :
    editInteractorCallbackImpl I ei (serve m) = .ok (⟨0, .fresh Fd.willing, false⟩, ei) := by
  obtain ⟨hresp, herr⟩ : needsNoResponse m.1 = true ∧ isError m = false := by
    simpa [concerns, needsResponse] using hm
  have hst : statusToError m.1 = .none := statusToError_eq_none herr
  have hclear := F.clear h
  have hnext : I.nextState ei.state ei.error ei.data m.1 m.2 .none = (ei.state, .none, ei.data) :=
    F.ignores h hresp
  rw [← hst] at hnext
  have hcall := (Outcome.idle (c := serve m) herr hnext (by rw [hst]; exact Error.toBool_none)
    (.inl rfl)).callback_eq
  have hzero : ei.error.mErr = 0 := by rw [hclear]; rfl
  rw [hcall, hzero]
  rfl

/-- A refused prompt leaves a failure behind and nothing on the descriptor. -/
theorem callback_refused {I : EditInteractor δ} (hI : ReportsWellFormed I)
    (hshort : ∀ {s le d err r e d'}, I.action s le d err = .ok (some r, e, d') → r.Short)
    {ei ei' : EditState δ} (hclear : ei.error = .none) {m : Message} {a : Answer}
    (hcall : editInteractorCallbackImpl I ei (serve m) = .ok (a, ei')) (ha : a.ret ≠ 0) :
    ei'.error.code ≠ 0 ∧ a.fd.accepted = [] := by
  have hzero : ei.error.mErr = 0 := by rw [hclear]; rfl
  have hwf : ei.error.WellFormed := by rw [hclear]; exact Error.wellFormed_none
  have hst := wellFormed_statusToError (serve m).status
  cases outcome_of_callback hcall with
  | mapped htrue => exact ⟨hst.code_ne_zero htrue, rfl⟩
  | rejected _ hnext he =>
      have hwf' := hI.of_nextState hnext hwf hst
      exact ⟨hwf'.code_ne_zero he, rfl⟩
  | idle => exact absurd hzero ha
  | failed _ hnext _ _ _ hact he' =>
      have hwf' := hI.of_nextState hnext hwf hst
      exact ⟨(hI.action hwf hwf' hact).code_ne_zero he', rfl⟩
  | silent => exact absurd hzero ha
  | @replied s e e' d d' r _ _ _ _ _ hact he' e'' fd hw =>
      obtain ⟨rfl, -⟩ := Prod.mk.inj
        (Option.some.inj (hw.symm.trans (writeReply_willing (hshort hact) e')))
      rw [finish_of_not he'] at ha
      exact absurd hzero ha

/-! ## Runs -/

omit [LibGpgError] in
/-- The reply of a callback that succeeded. -/
def reply (t : Exchange δ) : Option (List UInt8) := if t.output.ret = 0 then some (sent t) else none

/-- What a run of callbacks on the messages `ms` has to do with the performer. -/
structure Performed (I : EditInteractor δ) (ei : EditState δ) (ms : List Message)
    (ts : List (Exchange δ)) : Prop where
  inputs : ts.map Transition.input = ms.map serve
  replies : (ts.filter fun t => concerns (message t)).map reply =
    perform (respond I) ei (ms.filter concerns)
  refused : ∀ t ∈ ts, t.output.ret ≠ 0 → sent t = []
  quiet : ∀ t ∈ ts, concerns (message t) = false → sent t = []
  allZero : (∀ t ∈ ts, concerns (message t) = true → t.output.ret = 0) →
    ∀ t ∈ ts, t.output.ret = 0

/-- Another message that is not part of the dialogue. -/
theorem Performed.cons_quiet {I : EditInteractor δ} {ei ei' : EditState δ} {m : Message}
    {a : Answer} {ms : List Message} {ts : List (Exchange δ)} (P : Performed I ei ms ts)
    (hm : concerns m = false) (ha : a.ret = 0) (hsent : a.fd.accepted = []) :
    Performed I ei (m :: ms) (⟨ei, serve m, a, ei'⟩ :: ts) where
  inputs := by simp [P.inputs]
  replies := by simpa [message, serve, hm] using P.replies
  refused := by simpa [sent, ha] using P.refused
  quiet := by simpa [sent, hsent] using P.quiet
  allZero := by simpa [message, serve, hm, ha] using P.allZero

/-- Another prompt, answered. -/
theorem Performed.cons_answered {I : EditInteractor δ} {ei ei' : EditState δ} {m : Message}
    {a : Answer} {ms : List Message} {ts : List (Exchange δ)} (P : Performed I ei' ms ts)
    (hm : concerns m = true) (ha : a.ret = 0)
    (hnext : respond I ei m = some (a.fd.accepted, ei')) :
    Performed I ei (m :: ms) (⟨ei, serve m, a, ei'⟩ :: ts) where
  inputs := by simp [P.inputs]
  replies := by
    rw [List.filter_cons_of_pos hm, perform_cons_some hnext, ← P.replies]
    simp [message, serve, hm, reply, sent, ha]
  refused := by simpa [ha] using P.refused
  quiet := by simpa [message, serve, hm] using P.quiet
  allZero := by simpa [ha] using P.allZero

/-- After a refusal the rest of the messages runs, unanswered. -/
theorem exists_performed_refused {I : EditInteractor δ} (hI : Responsive I)
    {ei ei' : EditState δ} {m : Message} {a : Answer} (hm : concerns m = true)
    (hclear : ei.error = .none)
    (hcall : editInteractorCallbackImpl I ei (serve m) = .ok (a, ei')) (ha : a.ret ≠ 0)
    (ms : List Message) :
    ∃ ts u, Run (editInteractorCallbackImpl I) ei ts u ∧ Performed I ei (m :: ms) ts := by
  obtain ⟨hfail, hsent⟩ := callback_refused hI.wellFormed hI.short hclear hcall ha
  have hanswers : ∀ (ei : EditState δ), ∀ c ∈ ms.map serve,
      ∃ a ei', editInteractorCallbackImpl I ei c = .ok (a, ei') := by
    intro ei c hc
    obtain ⟨m, -, rfl⟩ := List.mem_map.mp hc
    exact hI.exists_callback ei m
  obtain ⟨ts, u, hrun, hinput⟩ := exists_run_of_forall_mem (ms.map serve) hanswers ei'
  have hdead := (failed_run hI.wellFormed hrun hfail).2
  have hret : ∀ t ∈ ts, t.output.ret ≠ 0 := by
    intro t ht h0
    exact (hdead t ht).1 (by rw [h0]; exact errCode_zero)
  refine ⟨_, _, .cons hcall hrun, ?_, ?_, ?_, ?_, ?_⟩
  · simp [hinput]
  · have hlen : (ts.filter fun t => concerns (message t)).length =
        (ms.filter concerns).length := by
      have hmsg : ts.map message = ms := by
        have := congrArg (List.map fun c : Call => (c.status, c.args)) hinput
        rw [List.map_map, List.map_map] at this
        exact this.trans (List.map_id ms)
      rw [← hmsg, List.filter_map, List.length_map]
      rfl
    have hnone : (ts.filter fun t => concerns (message t)).map reply =
        List.replicate (ms.filter concerns).length none := by
      refine List.eq_replicate_iff.mpr ⟨by simpa using hlen, ?_⟩
      intro x hx
      obtain ⟨t, ht, rfl⟩ := List.mem_map.mp hx
      simp [reply, hret t (List.mem_filter.mp ht).1]
    have hfirst : ((⟨ei, serve m, a, ei'⟩ :: ts : List (Exchange δ)).filter
        fun t => concerns (message t)) =
          ⟨ei, serve m, a, ei'⟩ :: ts.filter fun t => concerns (message t) :=
      List.filter_cons_of_pos hm
    rw [hfirst, List.filter_cons_of_pos hm, perform_cons_none (respond_eq_none hcall ha),
      List.map_cons, hnone]
    simp [reply, ha, List.replicate_succ]
  · intro t ht _
    rcases List.mem_cons.mp ht with rfl | ht
    · exact hsent
    · exact (hdead t ht).2.2
  · intro t ht _
    rcases List.mem_cons.mp ht with rfl | ht
    · exact hsent
    · exact (hdead t ht).2.2
  · intro h
    exact absurd (h _ List.mem_cons_self hm) ha

/-- **The callbacks perform the dialogue**: on every list of messages there is a run,
and its replies are those of the performer. -/
theorem exists_performed {I : EditInteractor δ} {R : EditState δ → List Script → Prop}
    (F : FollowsScripts I R) : ∀ (ms : List Message) {ei : EditState δ} {ds : List Script},
      R ei ds → ∃ ts u, Run (editInteractorCallbackImpl I) ei ts u ∧ Performed I ei ms ts := by
  intro ms
  induction ms with
  | nil =>
      intro ei ds _
      exact ⟨[], ei, .nil ei, rfl, rfl, by simp, by simp, by simp⟩
  | cons m ms ih =>
      intro ei ds h
      cases hm : concerns m with
      | false =>
          obtain ⟨ts, u, hrun, P⟩ := ih h
          exact ⟨_, _, .cons (callback_quiet F h hm) hrun, P.cons_quiet hm rfl rfl⟩
      | true =>
          obtain ⟨a, ei', hcall⟩ := F.responsive.exists_callback ei m
          by_cases ha : a.ret = 0
          · have hnext := respond_eq_some hm hcall ha rfl
            rcases F.follows.answer_or_refuse h m with ⟨_, hn⟩ | ⟨l, s', hs', hR, _⟩
            · rw [hn] at hnext; cases hnext
            · obtain ⟨rfl, rfl⟩ : l = a.fd.accepted ∧ s' = ei' := by
                simpa [hs'] using hnext
              obtain ⟨ts, u, hrun, P⟩ := ih hR
              exact ⟨_, _, .cons hcall hrun, P.cons_answered hm ha hnext⟩
          · exact exists_performed_refused F.responsive hm (F.clear h) hcall ha ms

/-- What the interactor accepts of a list of messages, told by the prompts alone. -/
theorem accepts_concerns_iff {I : EditInteractor δ} {R : EditState δ → List Script → Prop}
    (F : FollowsScripts I R) {ei : EditState δ} {ds : List Script} (h : R ei ds)
    (ms : List Message) :
    Accepts ds (ms.filter concerns) ↔
      (∀ m ∈ ms, isError m = false) ∧ Accepts ds (ms.filter needsResponse) := by
  have hfilter : (∀ m ∈ ms, isError m = false) →
      ms.filter concerns = ms.filter needsResponse := by
    intro herr
    refine List.filter_congr fun m hm => ?_
    simp [concerns, herr m hm]
  constructor
  · intro hacc
    have herr : ∀ m ∈ ms, isError m = false := by
      intro m hm
      by_contra hne
      have htrue : isError m = true := by simpa using hne
      have hmem : m ∈ ms.filter concerns :=
        List.mem_filter.mpr ⟨hm, by simp [concerns, htrue]⟩
      obtain ⟨d, hd, hp⟩ := hacc
      obtain ⟨⟨p, a⟩, hpa, rfl⟩ := List.mem_map.mp (hp.subset hmem)
      exact hne (F.noError h hd hpa)
    exact ⟨herr, hfilter herr ▸ hacc⟩
  · rintro ⟨herr, hacc⟩
    exact (hfilter herr).symm ▸ hacc

/-- **A subclass that follows scripts speaks their dialogue.** -/
theorem FollowsScripts.speaksDialogue {I : EditInteractor δ}
    {R : EditState δ → List Script → Prop} (F : FollowsScripts I R) {ei : EditState δ}
    {ds : List Script} (h : R ei ds) : SpeaksDialogue I ei ds := by
  intro ms
  obtain ⟨ts, ei', hrun, P⟩ := exists_performed F ms h
  refine ⟨ts, ei', hrun, P.inputs, ?_, ?_, P.quiet⟩
  · rw [← accepts_concerns_iff F h, ← F.follows.forall_isSome_iff _ h, ← P.replies]
    constructor
    · intro hzero x hx
      obtain ⟨t, ht, rfl⟩ := List.mem_map.mp hx
      simp [reply, hzero t (List.mem_filter.mp ht).1]
    · intro hsome
      apply P.allZero
      intro t ht hm
      have := hsome _ (List.mem_map.mpr ⟨t, List.mem_filter.mpr ⟨ht, hm⟩, rfl⟩)
      by_contra hne
      simp [reply, hne] at this
  · obtain ⟨pre, suf, hms, hacc, hmax, hrep⟩ := F.follows.perform_eq (ms.filter concerns) h
    refine ⟨pre, suf, hms, hacc, hmax, ?_⟩
    intro d hd hpre
    have hsent : (ts.filter fun t => concerns (message t)).map sent =
        ((ts.filter fun t => concerns (message t)).map reply).map (Option.getD · []) := by
      rw [List.map_map]
      refine List.map_congr_left fun t ht => ?_
      by_cases h0 : t.output.ret = 0
      · simp [reply, h0]
      · simp [reply, h0, P.refused t (List.mem_filter.mp ht).1 h0]
    rw [hsent, P.replies, hrep d hd hpre]
    simp [Function.comp_def]

/-- A script is run to its end with success, and its replies are sent. -/
theorem SpeaksDialogue.run_script {I : EditInteractor δ} {ei : EditState δ} {ds : List Script}
    (h : SpeaksDialogue I ei ds) {d : Script} (hd : d ∈ ds)
    (hresp : ∀ p ∈ d, needsResponse p.1 = true ∧ isError p.1 = false) :
    ∃ ts ei', Run (editInteractorCallbackImpl I) ei ts ei' ∧
      ts.map Transition.input = (d.map Prod.fst).map serve ∧ ts.map sent = d.map Prod.snd ∧
      ∀ t ∈ ts, t.output.ret = 0 := by
  obtain ⟨ts, ei', hrun, hin, hzero, ⟨pre, suf, hms, -, hmax, hrep⟩, -⟩ := h (d.map Prod.fst)
  have hprompt : ∀ m ∈ d.map Prod.fst, needsResponse m = true ∧ isError m = false := by
    intro m hm
    obtain ⟨p, hp, rfl⟩ := List.mem_map.mp hm
    exact hresp p hp
  have hconcerns : ∀ m ∈ d.map Prod.fst, concerns m = true := by
    intro m hm
    simp [concerns, (hprompt m hm).1]
  rw [List.filter_eq_self.mpr hconcerns] at hms
  have hsuf : suf = [] := by
    cases suf with
    | nil => rfl
    | cons p rest =>
        refine absurd ⟨d, hd, ?_⟩ (hmax p rest rfl)
        rw [hms, List.append_cons pre p rest]
        exact List.prefix_append _ _
  rw [hsuf, List.append_nil] at hms
  have hmessages : ts.map message = d.map Prod.fst := by
    have := congrArg (List.map fun c : Call => (c.status, c.args)) hin
    rw [List.map_map, List.map_map] at this
    exact this.trans (List.map_id _)
  have hall : ts.filter (fun t => concerns (message t)) = ts := by
    refine List.filter_eq_self.mpr fun t ht => hconcerns _ ?_
    rw [← hmessages]
    exact List.mem_map_of_mem ht
  refine ⟨ts, ei', hrun, hin, ?_, hzero.mpr ⟨fun m hm => (hprompt m hm).2, d, hd, ?_⟩⟩
  · have hsent := hrep d hd (hms ▸ List.prefix_rfl)
    rwa [hall, hsuf, ← hms, List.length_map, List.take_length, List.length_nil,
      List.replicate_zero, List.append_nil] at hsent
  · rw [List.filter_eq_self.mpr fun m hm => (hprompt m hm).1]

/-- The replies of a dialogue that is spoken are short. -/
theorem SpeaksDialogue.short_of_script {I : EditInteractor δ} {ei : EditState δ}
    {ds : List Script} (h : SpeaksDialogue I ei ds) {d : Script} (hd : d ∈ ds)
    (hresp : ∀ p ∈ d, needsResponse p.1 = true ∧ isError p.1 = false) {m : Message} {r : CString}
    (hr : (m, r.line) ∈ d) : r.Short := by
  obtain ⟨ts, ei', hrun, hin, hsent, hzero⟩ := h.run_script hd hresp
  obtain ⟨t, ht, hline⟩ : ∃ t ∈ ts, sent t = r.line :=
    List.mem_map.mp (hsent ▸ List.mem_map_of_mem (f := Prod.snd) hr)
  obtain ⟨m', -, hm'⟩ := List.mem_map.mp (hin ▸ List.mem_map_of_mem (f := Transition.input) ht)
  obtain ⟨pre, post, rfl⟩ := List.append_of_mem ht
  have hcall := hrun.cut.2.1
  rw [← hm'] at hcall
  exact short_of_callback hcall (hzero t ht) hline

/-! ## Interactors without data -/

/-- The scripts that an interactor without data has open in each of its states; none in
the states that are not part of the dialogue. -/
structure OpenScripts (I : EditInteractor Unit) (opens : ℕ → List Script) : Prop where
  responsive : Responsive I
  ignores : ∀ {s st args}, needsNoResponse st = true →
    I.nextState s .none () st args .none = (s, .none, ())
  /-- A prompt that heads an open script moves on, to a state with the reply. -/
  expects : ∀ {s p a r}, (p, a) :: r ∈ opens s →
    needsResponse p = true ∧ isError p = false ∧ ∃ s' reply, s' ≠ s ∧
      a = CString.line reply ∧ opens s' = advance (opens s) p ∧
      I.nextState s .none () p.1 p.2 .none = (s', .none, ()) ∧
      I.action s' .none () .none = .ok (some reply, .none, ())
  /-- Any other prompt is rejected. -/
  rejects : ∀ {s p}, opens s ≠ [] → needsResponse p = true → advance (opens s) p = [] →
    (I.nextState s .none () p.1 p.2 .none).2.1.toBool = true

theorem OpenScripts.isError_of_mem {I : EditInteractor Unit} {opens : ℕ → List Script}
    (O : OpenScripts I opens) {p : Message} {a : List UInt8} :
    ∀ (d : Script) {s : ℕ}, d ∈ opens s → (p, a) ∈ d → isError p = false := by
  intro d
  induction d with
  | nil => intro s _ hp; cases hp
  | cons q d ih =>
      obtain ⟨q, b⟩ := q
      intro s hd hp
      obtain ⟨_, herr, s', _, _, _, hopens, _⟩ := O.expects hd
      rcases List.mem_cons.mp hp with heq | hp
      · obtain ⟨rfl, -⟩ := Prod.mk.inj heq
        exact herr
      · exact ih (s := s') (hopens ▸ mem_advance.mpr ⟨b, hd⟩) hp

/-- The scripts open in the state are those still to be followed. -/
theorem OpenScripts.followsScripts {I : EditInteractor Unit} {opens : ℕ → List Script}
    (O : OpenScripts I opens) :
    FollowsScripts I fun ei ds => ei.error = .none ∧ ds = opens ei.state ∧ ds ≠ [] where
  responsive := O.responsive
  clear := fun h => h.1
  ignores := by
    rintro ei ds st args ⟨hclear, _⟩ hst
    rw [hclear]
    exact O.ignores hst
  noError := by
    rintro ei ds d p a ⟨_, rfl, _⟩ hd hp
    exact O.isError_of_mem d hd hp
  follows :=
    { nonempty := fun h => h.2.2
      answer := by
        rintro ⟨s, e, u⟩ ds p a r ⟨rfl, rfl, _⟩ hd
        obtain ⟨hresp, herr, s', reply, hs, rfl, hopens, hnext, hact⟩ := O.expects hd
        exact ⟨_, respond_replied hresp herr rfl hnext hs hact (O.responsive.short hact), rfl, hopens.symm,
          advance_ne_nil hd⟩
      refuse := by
        rintro ⟨s, e, u⟩ ds p ⟨rfl, rfl, hne⟩ hp
        cases hresp : needsResponse p with
        | true => exact respond_rejected rfl (O.rejects hne hresp hp)
        | false =>
            cases herr : isError p with
            | true => exact respond_isError I _ herr
            | false => exact respond_of_not_concerns (by simp [concerns, hresp, herr]) }

end Gpgmepp.EditInteractor
