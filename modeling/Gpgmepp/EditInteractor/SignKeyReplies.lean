import Gpgmepp.EditInteractor.Scripted

/-!
# Replies of the signing dialogue

The dialogue that signs user IDs has no script: gpg may ask for a confirmation of every
user ID, for an expiry date and for a check level, or not.  This module says what the
interactor does in every run, on descriptors that take everything, and whether each
prompt gets a reply.

A prompt is left unanswered, without an error, when the transition stays in its state or
moves to a state whose `action` returns nothing.  The table has six such keys,
`silentPrompts`, and a run answers all prompts exactly when it meets none of them:
`promptsAnswered_iff`.

## Main definitions

* `Serves`, `serves_of_callback` — what one callback of the dialogue does.
* `serving`, `serves_of_run` — the dialogue as a machine.
* `signCommand` — the command of gpg's menu that signs.
* `silentPrompts`, `PromptsAnswered` — prompts that get no reply.
-/

namespace Gpgmepp.GpgSignKeyEditInteractor

open EditInteractor StateMachine

/-- The command of gpg's menu that signs: with an `l` in front the signature is for local use and
not exportable, with a `t` it is a trust signature, with `nr` it cannot be revoked. -/
def signCommand (options : Int32) : List UInt8 :=
  (if options &&& 1 == 0 then ascii "l" else []) ++
    (if options &&& 4 != 0 then ascii "t" else []) ++
    (if options &&& 2 != 0 then ascii "nr" else []) ++ ascii "sign"

/-- The command is the one that the options ask for. -/
theorem Config.bytes_command (cfg : Config) : cfg.command.bytes = signCommand cfg.options := by
  have hwords : ∀ isLocal nonRevoc trust : Bool,
      (if isLocal && nonRevoc && trust then CString.lit "ltnrsign"
        else if isLocal && nonRevoc then .lit "lnrsign"
        else if isLocal && trust then .lit "ltsign"
        else if isLocal then .lit "lsign"
        else if nonRevoc && trust then .lit "tnrsign"
        else if nonRevoc then .lit "nrsign"
        else if trust then .lit "tsign"
        else .lit "sign").bytes =
      (if isLocal then ascii "l" else []) ++ (if trust then ascii "t" else []) ++
        (if nonRevoc then ascii "nr" else []) ++ ascii "sign" := by decide
  exact hwords _ _ _

/-- The keys of the table for which nothing is sent: the moves from `confirm` to itself,
and those to the states of the trust questions. -/
def silentPrompts : List Key :=
  [(confirm, .getBool, .lit "sign_uid.local_promote_okay"),
   (confirm, .getBool, .lit "sign_uid.okay"),
   (confirm, .getLine, .lit "trustsign_prompt.trust_value"),
   (uidsListSeparatelyDone, .getLine, .lit "trustsign_prompt.trust_value"),
   (setTrustValue, .getLine, .lit "trustsign_prompt.trust_depth"),
   (setTrustDepth, .getLine, .lit "trustsign_prompt.trust_regexp")]

theorem mem_silentPrompts_of_entry : ∀ e ∈ entries,
    e.2 = e.1.1 ∨ e.2 = setTrustValue ∨ e.2 = setTrustDepth ∨ e.2 = setTrustRegexp →
      e.1 ∈ silentPrompts := by decide

theorem makeTable_of_mem_silentPrompts : ∀ k ∈ silentPrompts,
    makeTable k = some k.1 ∨
      ∃ s ∈ [setTrustValue, setTrustDepth, setTrustRegexp], s ≠ k.1 ∧ makeTable k = some s := by
  decide

variable [LibGpgError]

/-! ## Short replies -/

omit [LibGpgError] in
theorem Config.short_command (cfg : Config) : cfg.command.Short := by
  simp only [Config.command]
  split_ifs <;> decide

omit [LibGpgError] in
theorem short_answer (b : Bool) : (answer b).Short := by
  cases b <;> decide

omit [LibGpgError] in
/-- The replies of this dialogue can be counted. -/
theorem Acts.short {cfg : Config} {s : ℕ} {d d' : Data} {r : CString}
    (h : Acts cfg s d (some r) d') : r.Short := by
  cases h with
  | command => exact cfg.short_command
  | answerSignAll => exact short_answer _
  | listDone => exact cfg.short_command
  | setExpire => exact short_answer true
  | checkLevel =>
      generalize cfg.checkLevel = level
      revert level
      decide
  | confirm => exact short_answer true
  | quit => decide
  | save => exact short_answer true
  | list => exact CString.short_decimal _

theorem short_of_action {cfg : Config} {s : ℕ} {d d' : Data} {err e : Error} {r : CString}
    (h : action cfg s d err = .ok (some r, e, d')) : r.Short := by
  rcases action_cases h with ⟨_, hacts⟩ | ⟨hnone, _⟩
  · exact hacts.short
  · cases hnone

/-! ## One callback -/

/-- What holds of the interactor between two callbacks: its error is well formed, and
the error state is one with an error. -/
structure Sound (ei : EditState Data) : Prop where
  wellFormed : ei.error.WellFormed
  error : ei.state = error → ei.error.code ≠ 0

/-- The interactor has not failed. -/
theorem Sound.eq_none {ei : EditState Data} (h : Sound ei) (h0 : ei.error.code = 0) :
    ei.error = .none := by
  obtain ⟨s, ⟨n⟩, d⟩ := ei
  by_contra hne
  exact h.wellFormed (fun hn => hne (congrArg Error.mk hn)) h0

/-- What a callback of the dialogue does when the descriptor takes everything: the bytes
it sends and where it leads. -/
inductive Serves (cfg : Config) (ei : EditState Data) (m : Message) :
    List UInt8 → EditState Data → Prop
  /-- The interactor has failed, now or before. -/
  | failed {ei' : EditState Data} (h : ei'.error.code ≠ 0) : Serves cfg ei m [] ei'
  /-- A status without a prompt. -/
  | ignored {d : Data} (h0 : ei.error = .none) (hresp : needsNoResponse m.1 = true) :
      Serves cfg ei m [] ⟨ei.state, .none, d⟩
  /-- A prompt that the table leaves unanswered. -/
  | unanswered {s : ℕ} {d : Data} (h0 : ei.error = .none) (hresp : needsNoResponse m.1 = false)
      (h : (ei.state, m) ∈ silentPrompts)
      (hs : s = ei.state ∨ s = setTrustValue ∨ s = setTrustDepth ∨ s = setTrustRegexp) :
      Serves cfg ei m [] ⟨s, .none, d⟩
  /-- A prompt that gets a reply. -/
  | answered {s : ℕ} {d d₁ d₂ : Data} {r : CString} (h0 : ei.error = .none)
      (hmove : Moves cfg d ei.state m.1 m.2 s) (hact : Acts cfg s d₁ (some r) d₂)
      (hs : s ≠ ei.state) : Serves cfg ei m r.line ⟨s, .none, d₂⟩

omit [LibGpgError] in
/-- A move that stays in its state is one of the silent prompts. -/
theorem mem_silentPrompts_of_stays {cfg : Config} {d : Data} {s : ℕ} {m : Message}
    (h : Moves cfg d s m.1 m.2 s) : (s, m) ∈ silentPrompts := by
  obtain ⟨st, args⟩ := m
  generalize hs : s = s' at h
  cases h with
  | table h =>
      subst hs
      exact mem_silentPrompts_of_entry _ (find_makeTable h).1 (.inl rfl)
  | done hlo hhi => omega

omit [LibGpgError] in
/-- The states of the trust questions are entered at silent prompts. -/
theorem mem_silentPrompts_of_trust {cfg : Config} {d : Data} {s s' : ℕ} {m : Message}
    (h : Moves cfg d s m.1 m.2 s')
    (hs : s' = setTrustValue ∨ s' = setTrustDepth ∨ s' = setTrustRegexp) :
    (s, m) ∈ silentPrompts := by
  obtain ⟨st, args⟩ := m
  cases h with
  | table h => exact mem_silentPrompts_of_entry _ (find_makeTable h).1 (.inr hs)
  | list => exact absurd hs (by decide)
  | next hlo hhi =>
      simp only [uidsListSeparatelyDone, setTrustValue, setTrustDepth, setTrustRegexp] at hhi hs
      omega
  | done => exact absurd hs (by decide)

/-- `action` has nothing for the error state. -/
theorem action_error (cfg : Config) (d : Data) (err : Error) :
    action cfg error d err = .ok (none, .fromCodeUser1 .general, d) := by
  simp [action, errorState, uidsListSeparatelyDone]

/-- A prompt that `nextState` does not reject makes a move, or is one more question in
`confirm`, for which `action` then has nothing. -/
theorem moves_of_nextState {cfg : Config} {ei : EditState Data} {m : Message} {s : ℕ} {e : Error}
    {d : Data} (hei : Sound ei) (hnone : ei.error = .none) (hresp : needsNoResponse m.1 = false)
    (hnext : nextState cfg ei.state ei.error ei.data m.1 m.2 .none = (s, e, d))
    (he : e.toBool = false) :
    e = .none ∧ (Moves cfg ei.data ei.state m.1 m.2 s ∨ (s = error ∧ ei.state = confirm)) := by
  rcases (nextState_cases hresp hnext).2 with ⟨rfl, hmove⟩ | ⟨_, n, hn, hc, rfl⟩ | ⟨rfl, rfl, hs⟩
  · exact ⟨rfl, .inl hmove⟩
  · rw [Error.toBool_fromCode hn hc] at he
    cases he
  · refine ⟨hnone, .inr ⟨rfl, ?_⟩⟩
    rcases hs with hs | hs
    · exact hs
    · exact absurd (by rw [hnone]; exact Error.code_none) (hei.error hs)

/-- A status that needs no response does not move the interactor. -/
theorem nextState_needsNoResponse (cfg : Config) (s : ℕ) (le err : Error) (d : Data)
    {st : StatusCode} (args : CString) (h : needsNoResponse st = true) :
    nextState cfg s le d st args err = (s, err, { d with started := true }) := by
  simp [nextState, h]

/-- A change of the state for which `action` has something, or nothing but no error. -/
theorem acts_of_changed {cfg : Config} {ei : EditState Data} {m : Message} {s : ℕ} {e e' : Error}
    {d d' : Data} {r : Option CString} (hei : Sound ei) (hnone : ei.error = .none)
    (hnext : nextState cfg ei.state ei.error ei.data m.1 m.2 .none = (s, e, d))
    (he : e.toBool = false) (hs : s ≠ ei.state) (hact : action cfg s d e = .ok (r, e', d'))
    (he' : e'.toBool = false) :
    needsNoResponse m.1 = false ∧ Moves cfg ei.data ei.state m.1 m.2 s ∧ Acts cfg s d r d' := by
  have hacts : Acts cfg s d r d' := by
    rcases action_cases hact with ⟨_, hacts⟩ | ⟨_, rfl, _⟩
    · exact hacts
    · rw [Error.toBool_fromCode (by decide) (by decide)] at he'
      cases he'
  have hresp : needsNoResponse m.1 = false := by
    by_contra hne
    rw [nextState_needsNoResponse _ _ _ _ _ _ (by simpa using hne)] at hnext
    exact hs (Prod.mk.inj hnext).1.symm
  refine ⟨hresp, ?_, hacts⟩
  obtain ⟨_, hmove | ⟨rfl, _⟩⟩ := moves_of_nextState hei hnone hresp hnext he
  · exact hmove
  · rw [action_error, Except.ok.injEq] at hact
    obtain ⟨-, rfl, -⟩ := Prod.mk.inj hact |>.imp id Prod.mk.inj
    rw [Error.toBool_fromCode (by decide) (by decide)] at he'
    cases he'

/-- **One callback of the signing dialogue.** -/
theorem serves_of_callback {cfg : Config} {ei ei' : EditState Data} {m : Message} {a : Answer}
    (hei : Sound ei)
    (h : editInteractorCallbackImpl (gpgSignKeyEditInteractor cfg) ei (serve m) = .ok (a, ei')) :
    Serves cfg ei m a.fd.accepted ei' := by
  have hI := reportsWellFormed_signKey cfg
  by_cases h0 : ei.error.code = 0
  · have hnone := hei.eq_none h0
    by_cases ha : a.ret = 0
    · cases outcome_of_callback h with
      | mapped hst => exact absurd ha (Error.toBool_iff.mp hst).1
      | rejected _ _ he => exact absurd ha (Error.toBool_iff.mp he).1
      | failed _ _ _ _ _ _ he' => exact absurd ha (Error.toBool_iff.mp he').1
      | @idle s e d hst hnext he hidle =>
          obtain rfl : s = ei.state := hidle.resolve_right fun hc => hc h0
          rw [statusToError_eq_none hst] at hnext
          rw [hnone]
          cases hresp : needsNoResponse m.1 with
          | true => exact .ignored hnone hresp
          | false =>
              obtain ⟨_, hmove | ⟨hs, hconf⟩⟩ := moves_of_nextState hei hnone hresp hnext he
              · exact .unanswered hnone hresp (mem_silentPrompts_of_stays hmove) (.inl rfl)
              · rw [hs] at hconf
                exact absurd hconf (by decide)
      | @silent s e e' d d' hst hnext he hs _ hact he' =>
          rw [statusToError_eq_none hst] at hnext
          obtain ⟨hresp, hmove, hacts⟩ := acts_of_changed hei hnone hnext he hs hact he'
          rw [hnone]
          cases hacts with
          | trust _ htrust =>
              exact .unanswered hnone hresp (mem_silentPrompts_of_trust hmove htrust) (.inr htrust)
      | @replied s e e' d d' r hst hnext he hs _ hact he' e'' fd hw =>
          rw [statusToError_eq_none hst] at hnext
          obtain ⟨_, hmove, hacts⟩ := acts_of_changed hei hnone hnext he hs hact he'
          obtain ⟨rfl, rfl⟩ := Prod.mk.inj
            (Option.some.inj (hw.symm.trans (writeReply_willing hacts.short e')))
          rw [finish_of_not he', hnone]
          exact .answered hnone hmove hacts hs
    · obtain ⟨hfail, hsent⟩ := callback_refused hI short_of_action hnone h ha
      rw [hsent]
      exact .failed hfail
  · obtain ⟨hfail, _, hsent⟩ := failed_step hI h h0
    rw [hsent]
    exact .failed hfail

omit [LibGpgError] in
theorem Acts.ne_error {cfg : Config} {s : ℕ} {d d' : Data} {r : Option CString}
    (h : Acts cfg s d r d') : s ≠ error := by
  cases h with
  | trust _ h => rcases h with rfl | rfl | rfl <;> decide
  | list _ _ hhi =>
      simp only [uidsListSeparatelyDone, errorState] at hhi ⊢
      omega
  | _ => decide

theorem Serves.sound {cfg : Config} {ei ei' : EditState Data} {m : Message} {l : List UInt8}
    (h : Serves cfg ei m l ei') (hei : Sound ei) : Sound ei' := by
  cases h with
  | failed h => exact ⟨fun _ => h, fun _ => h⟩
  | ignored h0 =>
      refine ⟨Error.wellFormed_none, fun hs => ?_⟩
      rw [← h0]
      exact hei.error hs
  | unanswered h0 _ _ hs =>
      refine ⟨Error.wellFormed_none, fun herr => ?_⟩
      rcases hs with rfl | htrust
      · rw [← h0]
        exact hei.error herr
      · have hact : Acts cfg _ ei.data none ei.data := .trust ei.data htrust
        exact absurd herr hact.ne_error
  | answered _ _ hact => exact ⟨Error.wellFormed_none, fun herr => absurd herr hact.ne_error⟩

theorem sound_start (cfg : Config) : Sound (EditInteractor.start (Data.init cfg)) :=
  ⟨Error.wellFormed_none, fun h : startState = errorState => absurd h (by decide)⟩

/-- The dialogue as a machine on status lines, each write taking all that it is offered. -/
def serving (cfg : Config) (ei : EditState Data) (m : Message) :
    Except NoReturn (Answer × EditState Data) :=
  editInteractorCallbackImpl (gpgSignKeyEditInteractor cfg) ei (serve m)

/-- A callback that replies, from a state without an error. -/
theorem serving_replied {cfg : Config} {s s' : ℕ} {d d' : Data} {m : Message} {r : CString}
    (hst : statusToError m.1 = .none)
    (hnext : nextState cfg s .none d m.1 m.2 .none = (s', .none, { d with started := true }))
    (hs : s' ≠ s)
    (hact : action cfg s' { d with started := true } .none = .ok (some r, .none, d')) :
    serving cfg ⟨s, .none, d⟩ m =
      .ok (⟨0, ⟨Fd.willing, r.line, false⟩, true⟩, ⟨s', .none, d'⟩) :=
  callback_replied (I := gpgSignKeyEditInteractor cfg)
    (by rw [hst]; exact Error.toBool_none) (by rw [hst]; exact hnext) Error.toBool_none hs
    Error.code_none hact Error.toBool_none (short_of_action hact)

/-- A completed callback of the dialogue. -/
abbrev Served := Transition (EditState Data) Message Answer

/-- Every callback of a run is one of those `Serves` lists. -/
theorem serves_of_run {cfg : Config} {ei' : EditState Data} {ts : List Served}
    (h : Run (serving cfg) (EditInteractor.start (Data.init cfg)) ts ei') :
    ∀ t ∈ ts, serving cfg t.source t.input = .ok (t.output, t.target) ∧
      Serves cfg t.source t.input t.output.fd.accepted t.target :=
  Run.forall_mem Sound _ h (sound_start cfg)
    (fun _ _ _ _ hei hstep => (serves_of_callback hei hstep).sound hei)
    fun _ _ _ _ hei hstep => ⟨hstep, serves_of_callback hei hstep⟩

/-! ## Prompts without a reply -/

omit [LibGpgError] in
/-- Every status line that gpg waits at and that was accepted has got one line. -/
def PromptsAnswered (ts : List Served) : Prop :=
  ∀ t ∈ ts, t.input.1 = .getLine ∨ t.input.1 = .getBool → t.output.ret = 0 →
    ∃ r : CString, r.OneLine ∧ t.output.fd.accepted = r.line

omit [LibGpgError] in
theorem Config.oneLine_command (cfg : Config) : cfg.command.OneLine := by
  simp only [Config.command]
  split_ifs <;> decide

omit [LibGpgError] in
/-- Every reply is a single line. -/
theorem Acts.oneLine {cfg : Config} {s : ℕ} {d d' : Data} {r : CString}
    (h : Acts cfg s d (some r) d') : r.OneLine := by
  have hanswer : ∀ b, (answer b).OneLine := by decide
  cases h with
  | command => exact cfg.oneLine_command
  | answerSignAll => exact hanswer _
  | listDone => exact cfg.oneLine_command
  | setExpire => exact hanswer true
  | checkLevel =>
      generalize cfg.checkLevel = level
      revert level
      decide
  | confirm => exact hanswer true
  | quit => decide
  | save => exact hanswer true
  | list => exact CString.oneLine_decimal _

omit [LibGpgError] in
theorem status_of_mem_silentPrompts :
    ∀ k ∈ silentPrompts, k.2.1 = .getLine ∨ k.2.1 = .getBool := by decide

/-- A silent prompt is accepted and gets nothing, whatever the configuration. -/
theorem serving_silent (cfg : Config) (ei : EditState Data) {m : Message}
    (h0 : ei.error = .none) (h : (ei.state, m) ∈ silentPrompts) :
    ∃ a ei', serving cfg ei m = .ok (a, ei') ∧ a.ret = 0 ∧ a.fd.accepted = [] := by
  have hresp : needsNoResponse m.1 = false ∧ statusToError m.1 = .none := by
    have hstatus : m.1 = .getLine ∨ m.1 = .getBool := status_of_mem_silentPrompts _ h
    rcases hstatus with hm | hm <;> rw [hm] <;> exact ⟨rfl, rfl⟩
  have hnext : ∀ s, makeTable (ei.state, m) = some s →
      (gpgSignKeyEditInteractor cfg).nextState ei.state ei.error ei.data m.1 m.2
        (statusToError m.1) = (s, .none, { ei.data with started := true }) := by
    intro s hs
    rw [hresp.2]
    simp [gpgSignKeyEditInteractor, nextState, hresp.1, hs]
  have herr : (statusToError (serve m).status).toBool = false := by
    simp [serve, hresp.2]
  rcases makeTable_of_mem_silentPrompts _ h with hstay | ⟨s, htrust, hs, hmove⟩
  · exact ⟨_, _, (Outcome.idle (c := serve m) herr (hnext _ hstay) Error.toBool_none
      (.inl rfl)).callback_eq, by rw [h0]; rfl, rfl⟩
  · have hact : (gpgSignKeyEditInteractor cfg).action s ei.error
        { ei.data with started := true } .none =
          .ok (none, .none, { ei.data with started := true }) := by
      simp only [List.mem_cons, List.not_mem_nil, or_false] at htrust
      rcases htrust with rfl | rfl | rfl <;> rfl
    exact ⟨_, _, (Outcome.silent (c := serve m) herr (hnext _ hmove) Error.toBool_none hs
      (by rw [h0]; exact Error.code_none) hact Error.toBool_none).callback_eq, by rw [h0]; rfl, rfl⟩

/-- A prompt that is neither silent nor refused gets one line. -/
theorem Serves.oneLine {cfg : Config} {ei ei' : EditState Data} {m : Message} {l : List UInt8}
    (h : Serves cfg ei m l ei') (hok : ei'.error.code = 0) (hresp : needsNoResponse m.1 = false)
    (hloud : ei.error = .none → (ei.state, m) ∉ silentPrompts) :
    ∃ r : CString, r.OneLine ∧ l = r.line := by
  cases h with
  | failed hfail => exact absurd hok hfail
  | ignored _ hresp' => rw [hresp] at hresp'; cases hresp'
  | unanswered h0 _ hsilent => exact absurd hsilent (hloud h0)
  | answered _ _ hact => exact ⟨_, hact.oneLine, rfl⟩

/-- **A run answers every prompt if and only if it meets no silent prompt** before it
fails: no second confirmation in `confirm`, and none of the trust questions. -/
theorem promptsAnswered_iff (cfg : Config) (ts : List Served) (ei' : EditState Data)
    (h : Run (serving cfg) (EditInteractor.start (Data.init cfg)) ts ei') :
    PromptsAnswered ts ↔
      ∀ t ∈ ts, t.source.error = .none → (t.source.state, t.input) ∉ silentPrompts := by
  constructor
  · intro hans t ht h0 hsilent
    obtain ⟨a, ei', hcall, hret, hsent⟩ := serving_silent cfg _ h0 hsilent
    rw [(serves_of_run h t ht).1] at hcall
    obtain ⟨ha, -⟩ := Prod.mk.inj (Except.ok.inj hcall)
    obtain ⟨r, _, hr⟩ := hans t ht (status_of_mem_silentPrompts _ hsilent) (ha ▸ hret)
    rw [ha, hsent] at hr
    exact CString.line_ne_nil r hr.symm
  · intro hloud t ht hprompt hret
    obtain ⟨hcall, hserves⟩ := serves_of_run h t ht
    have hok : t.target.error.code = 0 := by
      by_contra hfail
      rw [(error_of_callback hcall).1] at hret
      exact Error.mErr_ne_zero_of_code hfail hret
    refine hserves.oneLine hok ?_ (hloud t ht)
    rcases hprompt with hp | hp <;> rw [hp] <;> rfl

/-- The first callback: gpg asks for a command. -/
def commandServed (cfg : Config) : Served where
  source := EditInteractor.start (Data.init cfg)
  input := getLine "keyedit.prompt"
  output := ⟨0, ⟨Fd.willing, cfg.command.line, false⟩, true⟩
  target := ⟨command, .none, { Data.init cfg with started := true }⟩

omit [LibGpgError] in
theorem serving_command (cfg : Config) :
    letI := LibGpgError.documented
    serving cfg (commandServed cfg).source (commandServed cfg).input =
      .ok ((commandServed cfg).output, (commandServed cfg).target) := by
  let := LibGpgError.documented
  have hs : command ≠ startState := by decide
  exact callback_replied (I := gpgSignKeyEditInteractor cfg) Error.toBool_none rfl
    Error.toBool_none hs Error.code_none rfl Error.toBool_none cfg.short_command

omit [LibGpgError] in
theorem promptsAnswered_command :
    letI := LibGpgError.documented
    PromptsAnswered [commandServed ⟨1, [], 0⟩] ↔ ∀ t ∈ [commandServed ⟨1, [], 0⟩],
      t.source.error = .none → (t.source.state, t.input) ∉ silentPrompts := by
  let := LibGpgError.documented
  exact promptsAnswered_iff _ _ _ (.single (serving_command ⟨1, [], 0⟩))

omit [LibGpgError] in
/-- A second question for confirmation is accepted and gets no reply. -/
theorem not_promptsAnswered_twice :
    letI := LibGpgError.documented
    ¬ ∀ (cfg : Config) (ts : List Served) (ei' : EditState Data),
      Run (serving cfg) (EditInteractor.start (Data.init cfg)) ts ei' → PromptsAnswered ts := by
  let := LibGpgError.documented
  intro h
  let cfg : Config := ⟨1, [], 0⟩
  have hconfirm : serving cfg (commandServed cfg).target (getBool "sign_uid.okay") =
      .ok (⟨0, ⟨Fd.willing, (CString.lit "Y").line, false⟩, true⟩,
        ⟨confirm, .none, (commandServed cfg).target.data⟩) :=
    callback_replied (I := gpgSignKeyEditInteractor cfg) Error.toBool_none rfl
      Error.toBool_none (by decide) Error.code_none rfl Error.toBool_none (by decide)
  obtain ⟨a, ei', hagain, hret, hsent⟩ := serving_silent cfg
    ⟨confirm, .none, (commandServed cfg).target.data⟩ (m := getBool "sign_uid.okay") rfl
    (by decide)
  have hrun := Run.cons (serving_command cfg) (.cons hconfirm (.single hagain))
  obtain ⟨r, _, hr⟩ := h cfg _ _ hrun _
    (List.mem_cons_of_mem _ (List.mem_cons_of_mem _ List.mem_cons_self)) (.inr rfl) hret
  rw [hsent] at hr
  exact CString.line_ne_nil r hr.symm

end Gpgmepp.GpgSignKeyEditInteractor
