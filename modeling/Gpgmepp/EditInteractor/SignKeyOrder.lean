import Gpgmepp.EditInteractor.SignKeyReplies

/-!
# Kinds and order of the replies of the signing dialogue

The interactor chooses its replies by its state, not by the prompt.  They are right for
the prompt because every state is entered at prompts of one kind only, `promptsOf`, and
the two states that end the edit are entered in order: `quit` from `confirm`, and the
question for saving is answered in `quit`.

## Main definitions

* `promptsOf` — the prompts with which the table enters a state.
* `ReplyKind` — replies that fit a prompt.
* `Tells`, `tells_of_run` — what a state says about the replies sent before.
* `RepliesFit`, `repliesFit` — the law of the replies.
-/

namespace Gpgmepp.GpgSignKeyEditInteractor

open EditInteractor StateMachine

/-- The prompts with which the table enters a state. -/
def promptsOf (s : ℕ) : List CString :=
  if s = command then [.lit "keyedit.prompt"]
  else if s = uidsAnswerSignAll then [.lit "keyedit.sign_all.okay"]
  else if s = setExpire then [.lit "sign_uid.expire"]
  else if s = setCheckLevel then [.lit "sign_uid.class"]
  else if s = setTrustValue then [.lit "trustsign_prompt.trust_value"]
  else if s = setTrustDepth then [.lit "trustsign_prompt.trust_depth"]
  else if s = setTrustRegexp then [.lit "trustsign_prompt.trust_regexp"]
  else if s = confirm then [.lit "sign_uid.okay", .lit "sign_uid.local_promote_okay"]
  else if s = quit then [.lit "keyedit.prompt"]
  else if s = save then [.lit "keyedit.save.okay"]
  else []

theorem prompt_of_entry : ∀ e ∈ entries, e.1.2.2 ∈ promptsOf e.2 := by decide

theorem source_of_entry : ∀ e ∈ entries,
    (e.2 = quit → e.1.1 = confirm ∨ e.1.1 = error) ∧
      (e.1.2.2 = .lit "keyedit.save.okay" → e.1.1 = quit) := by decide

variable [LibGpgError]

/-! ## Kinds of replies -/

omit [LibGpgError] in
/-- The reply `r` is of the kind that the prompt asks for.  There is none for the
questions about trust. -/
inductive ReplyKind (cfg : Config) : CString → CString → Prop
  /-- The sign command that the options ask for. -/
  | command {r : CString} (h : r.bytes = signCommand cfg.options) :
      ReplyKind cfg (.lit "keyedit.prompt") r
  | userID {r : CString} {u : UInt32} (h : u ∈ cfg.userIDs)
      (hr : r.bytes = CString.numeral (u + 1).toNat) : ReplyKind cfg (.lit "keyedit.prompt") r
  | quit : ReplyKind cfg (.lit "keyedit.prompt") (.lit "quit")
  | signAll (h : cfg.userIDs = []) : ReplyKind cfg (.lit "keyedit.sign_all.okay") (.lit "Y")
  | signSome (h : cfg.userIDs ≠ []) : ReplyKind cfg (.lit "keyedit.sign_all.okay") (.lit "N")
  | checkLevel {r : CString} (h : r.bytes = CString.numeral cfg.checkLevel) :
      ReplyKind cfg (.lit "sign_uid.class") r
  | yes {prompt : CString} (h : prompt ∈ [CString.lit "sign_uid.okay",
      .lit "sign_uid.local_promote_okay", .lit "sign_uid.expire", .lit "keyedit.save.okay"]) :
      ReplyKind cfg prompt (.lit "Y")

omit [LibGpgError] in
/-- The prompts of the questions about trust. -/
def trustPrompts : List CString :=
  [.lit "trustsign_prompt.trust_value", .lit "trustsign_prompt.trust_depth",
    .lit "trustsign_prompt.trust_regexp"]

omit [LibGpgError] in
/-- The questions for a confirmation of the signature. -/
def confirmPrompts : List CString := [.lit "sign_uid.okay", .lit "sign_uid.local_promote_okay"]

omit [LibGpgError] in
/-- The table of the sources has the digits. -/
theorem bytes_checkLevelStrings : ∀ level : Fin 4,
    (checkLevelStrings level).bytes = CString.numeral level := by decide

omit [LibGpgError] in
theorem replyKind_answer (cfg : Config) :
    ReplyKind cfg (.lit "keyedit.sign_all.okay") (answer cfg.signAll) := by
  cases hids : cfg.userIDs with
  | nil => simpa [Config.signAll, hids, answer] using ReplyKind.signAll hids
  | cons u ids =>
      have hne : cfg.userIDs ≠ [] := by simp [hids]
      simpa [Config.signAll, hids, answer] using ReplyKind.signSome hne

omit [LibGpgError] in
/-- What the states of the list and the one after them answer. -/
theorem Acts.reply_of_list {cfg : Config} {s : ℕ} {d d' : Data} {r : CString}
    (h : Acts cfg s d (some r) d') (hlo : uidsListSeparately ≤ s)
    (hhi : s ≤ uidsListSeparatelyDone) : ReplyKind cfg (.lit "keyedit.prompt") r := by
  cases h with
  | listDone => exact .command cfg.bytes_command
  | list _ _ _ hu => exact .userID (List.mem_of_getElem? hu) (CString.bytes_decimal _)
  | command => exact absurd hlo (by decide)
  | answerSignAll => exact absurd hlo (by decide)
  | _ => exact absurd hhi (by decide)

omit [LibGpgError] in
theorem promptsOf_list {s : ℕ} (hlo : uidsListSeparately ≤ s) (hhi : s < uidsListSeparatelyDone) :
    promptsOf s = [] := by
  have hne : ∀ t, ¬ (uidsListSeparately ≤ t ∧ t < uidsListSeparatelyDone) → s ≠ t :=
    fun t => ne_of_list hlo hhi
  rw [promptsOf, if_neg (hne command (by decide)), if_neg (hne uidsAnswerSignAll (by decide)),
    if_neg (hne setExpire (by decide)), if_neg (hne setCheckLevel (by decide)),
    if_neg (hne setTrustValue (by decide)), if_neg (hne setTrustDepth (by decide)),
    if_neg (hne setTrustRegexp (by decide)), if_neg (hne confirm (by decide)),
    if_neg (hne quit (by decide)), if_neg (hne save (by decide))]

omit [LibGpgError] in
/-- A state that the table enters at a prompt has a reply of its kind. -/
theorem Acts.replyKind_of_table {cfg : Config} {s : ℕ} {d d' : Data} {r prompt : CString}
    (h : Acts cfg s d (some r) d') (hp : prompt ∈ promptsOf s) : ReplyKind cfg prompt r := by
  cases h with
  | command => obtain rfl := List.mem_singleton.mp hp; exact .command cfg.bytes_command
  | answerSignAll => obtain rfl := List.mem_singleton.mp hp; exact replyKind_answer cfg
  | listDone => cases hp
  | setExpire => obtain rfl := List.mem_singleton.mp hp; exact .yes (by decide)
  | checkLevel =>
      obtain rfl := List.mem_singleton.mp hp
      exact .checkLevel (bytes_checkLevelStrings _)
  | confirm => exact .yes (List.mem_append_left [_, _] hp)
  | quit => obtain rfl := List.mem_singleton.mp hp; exact .quit
  | save => obtain rfl := List.mem_singleton.mp hp; exact .yes (by decide)
  | list _ hlo hhi => rw [promptsOf_list hlo hhi] at hp; cases hp

omit [LibGpgError] in
/-- **A reply is of the kind its prompt asks for.** -/
theorem replyKind_of_moves {cfg : Config} {d d₁ d₂ : Data} {s s' : ℕ} {m : Message} {r : CString}
    (hmove : Moves cfg d s m.1 m.2 s') (hact : Acts cfg s' d₁ (some r) d₂) :
    ReplyKind cfg m.2 r := by
  obtain ⟨st, args⟩ := m
  cases hmove with
  | table h => exact hact.replyKind_of_table (prompt_of_entry _ (find_makeTable h).1)
  | list => exact hact.reply_of_list le_rfl (by decide)
  | next hlo hhi => exact hact.reply_of_list (by omega) (by omega)
  | done => exact hact.reply_of_list (by decide) le_rfl

omit [LibGpgError] in
theorem not_mem_trustPrompts {cfg : Config} {prompt r : CString} (h : ReplyKind cfg prompt r) :
    prompt ∉ trustPrompts := by
  cases h with
  | yes h =>
      revert prompt
      decide
  | _ => decide

/-! ## The order of replies -/

omit [LibGpgError] in
theorem decimal_ne_quit (n : UInt32) : CString.decimal n ≠ .lit "quit" := by
  intro h
  have hq : (113 : UInt8) ∈ (CString.decimal n).bytes := by rw [h]; decide
  exact absurd (CString.mem_decimal hq).2 (by decide)

omit [LibGpgError] in
theorem command_ne_quit (cfg : Config) : cfg.command ≠ .lit "quit" := by
  simp only [Config.command]
  split_ifs <;> decide

omit [LibGpgError] in
/-- Only the state `quit` has the reply `quit`. -/
theorem eq_quit_of_acts {cfg : Config} {s : ℕ} {d d' : Data} {r : CString}
    (h : Acts cfg s d (some r) d') (hr : r = .lit "quit") : s = quit := by
  have hanswer : ∀ b, answer b ≠ .lit "quit" := by decide
  cases h with
  | command => exact absurd hr (command_ne_quit cfg)
  | answerSignAll => exact absurd hr (hanswer _)
  | listDone => exact absurd hr (command_ne_quit cfg)
  | setExpire => exact absurd hr (hanswer true)
  | checkLevel =>
      generalize cfg.checkLevel = level at hr
      revert level
      decide
  | confirm => exact absurd hr (hanswer true)
  | quit => rfl
  | save => exact absurd hr (hanswer true)
  | list => exact absurd hr (decimal_ne_quit _)

omit [LibGpgError] in
/-- The states on the way to the saving that matter for the order, with their replies. -/
def milestones : List (ℕ × CString) := [(confirm, .lit "Y"), (quit, .lit "quit")]

omit [LibGpgError] in
theorem eq_of_mem_milestones {cfg : Config} {s : ℕ} {d d' : Data} {r r' : CString}
    (h : Acts cfg s d (some r) d') (hs : (s, r') ∈ milestones) : r = r' := by
  simp only [milestones, List.mem_cons, Prod.mk.injEq, List.not_mem_nil, or_false] at hs
  cases h with
  | confirm => rcases hs with ⟨_, rfl⟩ | ⟨hs, _⟩ <;> first | rfl | exact absurd hs (by decide)
  | quit => rcases hs with ⟨hs, _⟩ | ⟨_, rfl⟩ <;> first | rfl | exact absurd hs (by decide)
  | list _ _ hhi =>
      rcases hs with ⟨rfl, _⟩ | ⟨rfl, _⟩ <;> exact absurd hhi (by decide)
  | _ => rcases hs with ⟨hs, _⟩ | ⟨hs, _⟩ <;> exact absurd hs (by decide)

omit [LibGpgError] in
/-- The moves outside the table lead nowhere near the milestones and the saving, so that
these are entered as the table says. -/
theorem mem_entries_of_moves {cfg : Config} {d : Data} {s s' : ℕ} {m : Message}
    (h : Moves cfg d s m.1 m.2 s')
    (hs : s' = confirm ∨ s' = quit ∨ m.2 = .lit "keyedit.save.okay") :
    ((s, m), s') ∈ entries := by
  obtain ⟨st, args⟩ := m
  cases h with
  | table h => exact (find_makeTable h).1
  | list => exact absurd hs (by decide)
  | next _ hhi =>
      simp only [uidsListSeparatelyDone, confirm, quit] at hhi hs
      rcases hs with hs | hs | hs
      · omega
      · omega
      · exact absurd hs (by decide)
  | done => exact absurd hs (by decide)

omit [LibGpgError] in
/-- One of the prompts was answered with `r`. -/
def Answered (prompts : List CString) (r : CString) (ts : List Served) : Prop :=
  ∃ t ∈ ts, t.input.2 ∈ prompts ∧ t.output.fd.accepted = r.line

omit [LibGpgError] in
theorem Answered.append {prompts : List CString} {r : CString} {ts : List Served}
    (h : Answered prompts r ts) (us : List Served) : Answered prompts r (ts ++ us) := by
  obtain ⟨t, ht, hsent⟩ := h
  exact ⟨t, List.mem_append_left us ht, hsent⟩

/-- An interactor that has not failed and is in a state of the milestones has sent its
reply, at a prompt that enters the state. -/
structure Tells (ts : List Served) (ei : EditState Data) : Prop where
  sound : Sound ei
  answered : ei.error = .none → ∀ p ∈ milestones, ei.state = p.1 →
    Answered (promptsOf p.1) p.2 ts

/-- One more callback. -/
theorem Tells.step {cfg : Config} {ts : List Served} {ei ei' : EditState Data} {m : Message}
    {a : Answer} (h : Tells ts ei) (hserves : Serves cfg ei m a.fd.accepted ei') :
    Tells (ts ++ [⟨ei, m, a, ei'⟩]) ei' := by
  refine ⟨hserves.sound h.sound, ?_⟩
  rintro h0 ⟨s, r⟩ hp hs
  generalize hsent : a.fd.accepted = l at hserves
  cases hserves with
  | failed hfail => exact absurd (by rw [h0]; exact Error.code_none) hfail
  | ignored hold => exact (h.answered hold _ hp hs).append _
  | unanswered hold _ _ hstay =>
      rcases hstay with hstay | htrust
      · exact (h.answered hold _ hp (hstay ▸ hs)).append _
      · have hno : ∀ p ∈ milestones,
            ¬ (p.1 = setTrustValue ∨ p.1 = setTrustDepth ∨ p.1 = setTrustRegexp) := by decide
        simp only at hs
        exact absurd (hs ▸ htrust) (hno _ hp)
  | answered _ hmove hact _ =>
      -- it is this callback that enters the state
      simp only at hs
      subst hs
      have hstates : ∀ p ∈ milestones, p.1 = confirm ∨ p.1 = quit := by decide
      have hentry := mem_entries_of_moves hmove ((hstates _ hp).imp_right .inl)
      refine ⟨_, List.mem_append_right _ (List.mem_singleton_self _), prompt_of_entry _ hentry, ?_⟩
      rw [hsent, eq_of_mem_milestones hact hp]

/-- Every run tells what was sent. -/
theorem tells_of_run {cfg : Config} {ei' : EditState Data} {ts : List Served}
    (h : Run (serving cfg) (EditInteractor.start (Data.init cfg)) ts ei') : Tells ts ei' := by
  refine Run.history Tells ⟨sound_start cfg, ?_⟩ ?_ h
  · intro _ p hp hs
    have hno : ∀ p ∈ milestones, startState ≠ p.1 := by decide
    exact absurd hs (hno p hp)
  · intro ts m i o m' _ htells hstep
    exact htells.step (serves_of_callback htells.sound hstep)

/-- **The law of the replies** of a run: each fits its prompt, the trust questions get
none, `quit` comes after a confirmation of the signature, and the `Y` that saves after
`quit`. -/
def RepliesFit (cfg : Config) : Prop :=
  ∀ ts t us ei', Run (serving cfg) (EditInteractor.start (Data.init cfg)) (ts ++ t :: us) ei' →
    (t.input.2 ∈ trustPrompts → t.output.fd.accepted = []) ∧
    (t.output.fd.accepted ≠ [] → ∃ r, t.output.fd.accepted = CString.line r ∧
      ReplyKind cfg t.input.2 r ∧
      (r = .lit "quit" → Answered confirmPrompts (.lit "Y") ts) ∧
      (t.input.2 = .lit "keyedit.save.okay" →
        Answered [.lit "keyedit.prompt"] (.lit "quit") ts))

/-- **Every run of the signing dialogue obeys the law of the replies.** -/
theorem repliesFit (cfg : Config) : RepliesFit cfg := by
  intro ts t us ei' h
  obtain ⟨hrun, hstep, _⟩ := h.cut
  have htells := tells_of_run hrun
  have hserves := serves_of_callback htells.sound hstep
  obtain ⟨ei, m, a, ei₁⟩ := t
  simp only at htells hserves ⊢
  generalize a.fd.accepted = l at hserves ⊢
  cases hserves with
  | failed => simp
  | ignored => simp
  | unanswered => simp
  | answered h0 hmove hact _ =>
      have hkind := replyKind_of_moves hmove hact
      refine ⟨fun htrust => absurd htrust (not_mem_trustPrompts hkind), fun _ => ?_⟩
      refine ⟨_, rfl, hkind, ?_, ?_⟩
      · intro hr
        have hs := eq_quit_of_acts hact hr
        have hentry := mem_entries_of_moves hmove (.inr (.inl hs))
        rcases (source_of_entry _ hentry).1 hs with hconf | herr
        · exact htells.answered h0 _ List.mem_cons_self hconf
        · exact absurd (by rw [h0]; exact Error.code_none) (htells.sound.error herr)
      · intro hsave
        have hentry := mem_entries_of_moves hmove (.inr (.inr hsave))
        have hquit := (source_of_entry _ hentry).2 hsave
        exact htells.answered h0 _ (List.mem_cons_of_mem _ List.mem_cons_self) hquit

end Gpgmepp.GpgSignKeyEditInteractor
