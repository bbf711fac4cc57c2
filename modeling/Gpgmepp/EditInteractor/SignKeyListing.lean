import Gpgmepp.EditInteractor.SignKeyReplies

/-!
# The list of user IDs in the signing dialogue

Progress through the list of user IDs is kept twice: in the state, which grows by one for
each user ID, and in an iterator, which `action` advances.  In a dialogue that lists them
once the two stay in step, so that the replies are the numbers of the user IDs in order:
`listsUserIDs`.

The table has a way back, from `uidsListSeparatelyDone` through `command` and
`uidsAnswerSignAll` to the list, while the iterator is never set back.  A run that takes
it makes `nextUserID` fail: `assertionFails_iff`.

## Main definitions

* `listing` — the interactor as a machine, on any descriptor.
* `ListExhausted`, `assertionFails_iff` — when the assertion of `nextUserID` fails.
* `listScript`, `Opens` — the dialogue that lists the user IDs.
* `ListsUserIDs`, `listsUserIDs` — the law of its replies.
-/

namespace Gpgmepp.GpgSignKeyEditInteractor

open EditInteractor StateMachine

variable [LibGpgError]

/-! ## The assertion of `nextUserID` -/

/-- The dialogue as a machine on callbacks, whatever the descriptor does. -/
def listing (cfg : Config) (ei : EditState Data) (c : Call) :
    Except NoReturn (Answer × EditState Data) :=
  editInteractorCallbackImpl (gpgSignKeyEditInteractor cfg) ei c

omit [LibGpgError] in
/-- A prompt for a command comes in `uidsAnswerSignAll`, and the list, which is not empty,
has been used up. -/
def ListExhausted (cfg : Config) (ei : EditState Data) (c : Call) : Prop :=
  ei.error.code = 0 ∧ ei.state = uidsAnswerSignAll ∧ c.status = .getLine ∧
    c.args = .lit "keyedit.prompt" ∧ cfg.signAll = false ∧ cfg.allUserIDsListed ei.data = true

omit [LibGpgError] in
/-- The table neither enters nor leaves the states of the list. -/
theorem not_list_of_entry : ∀ e ∈ entries,
    ¬ (uidsListSeparately ≤ e.1.1 ∧ e.1.1 < uidsListSeparatelyDone) ∧
      ¬ (uidsListSeparately ≤ e.2 ∧ e.2 < uidsListSeparatelyDone) := by decide

/-- `nextState` changes only `started`. -/
theorem data_of_nextState {cfg : Config} {s s' : ℕ} {le err e : Error} {d d' : Data}
    {st : StatusCode} {args : CString} (h : nextState cfg s le d st args err = (s', e, d')) :
    d' = { d with started := true } := by
  cases hst : needsNoResponse st with
  | true =>
      rw [nextState_needsNoResponse _ _ _ _ _ _ hst] at h
      exact (Prod.mk.inj (Prod.mk.inj h).2).2.symm
  | false => exact (nextState_cases hst h).1

/-- The states of the list answer with the next user ID. -/
theorem action_list {cfg : Config} {s : ℕ} (hlo : uidsListSeparately ≤ s)
    (hhi : s < uidsListSeparatelyDone) (d : Data) (err : Error) :
    action cfg s d err =
      match cfg.nextUserID d with
      | .error f => .error f
      | .ok (n, d) => .ok (some (.decimal n), err, { d with scratch := .decimal n }) := by
  have hne : ∀ t, ¬ (uidsListSeparately ≤ t ∧ t < uidsListSeparatelyDone) → s ≠ t :=
    fun t => ne_of_list hlo hhi
  have htrust : ¬ (s = setTrustValue ∨ s = setTrustDepth ∨ s = setTrustRegexp) :=
    not_or_intro (hne setTrustValue (by decide))
      (not_or_intro (hne setTrustDepth (by decide)) (hne setTrustRegexp (by decide)))
  rw [action, if_neg (hne command (by decide)), if_neg (hne uidsAnswerSignAll (by decide)),
    if_neg (hne uidsListSeparatelyDone (by decide)), if_neg (hne setExpire (by decide)),
    if_neg htrust, if_neg (hne setCheckLevel (by decide)), if_neg (hne confirm (by decide)),
    if_neg (hne quit (by decide)), if_neg (hne save (by decide))]
  exact if_pos ⟨hlo, hhi⟩

/-- The assertion of `action` fails exactly in a state of the list, at the end of the list. -/
theorem action_eq_error_iff {cfg : Config} {s : ℕ} {d : Data} {err : Error} :
    action cfg s d err = .error .assertionFailed ↔
      (uidsListSeparately ≤ s ∧ s < uidsListSeparatelyDone) ∧ cfg.userIDs.length ≤ d.nextId := by
  have hnext : ∀ hlist : uidsListSeparately ≤ s ∧ s < uidsListSeparatelyDone,
      action cfg s d err = .error .assertionFailed ↔ cfg.userIDs.length ≤ d.nextId := by
    rintro ⟨hlo, hhi⟩
    rw [action_list hlo hhi, ← List.getElem?_eq_none_iff]
    cases hu : cfg.userIDs[d.nextId]? with
    | none => simp only [Config.nextUserID, hu]
    | some u => simp only [Config.nextUserID, hu, reduceCtorEq]
  constructor
  · intro h
    have hlist : uidsListSeparately ≤ s ∧ s < uidsListSeparatelyDone := by
      revert h
      fun_cases action cfg s d err <;> intro h
      case case10 hs _ _ | case11 hs _ _ _ => exact hs
      all_goals cases h
    exact ⟨hlist, (hnext hlist).mp h⟩
  · rintro ⟨hlist, hlen⟩
    exact (hnext hlist).mpr hlen

omit [LibGpgError] in
/-- A move into the list leaves the iterator before its end, unless the list is begun. -/
theorem moves_into_list {cfg : Config} {d : Data} {s s' : ℕ} {st : StatusCode} {args : CString}
    (h : Moves cfg d s st args s') (hlist : uidsListSeparately ≤ s' ∧ s' < uidsListSeparatelyDone) :
    cfg.allUserIDsListed d = false ∨
      (s = uidsAnswerSignAll ∧ st = .getLine ∧ args = .lit "keyedit.prompt" ∧
        cfg.signAll = false) := by
  cases h with
  | table h => exact absurd hlist (not_list_of_entry _ (find_makeTable h).1).2
  | list h => exact .inr ⟨rfl, rfl, rfl, h⟩
  | next _ _ h => exact .inl h
  | done => exact absurd hlist.2 (lt_irrefl _)

/-- Beginning the list. -/
theorem nextState_list {cfg : Config} (le err : Error) (d : Data) (h : cfg.signAll = false) :
    nextState cfg uidsAnswerSignAll le d .getLine (.lit "keyedit.prompt") err =
      (uidsListSeparately, err, { d with started := true }) := by
  have htab : makeTable (uidsAnswerSignAll, .getLine, .lit "keyedit.prompt") = none := by decide
  simp [nextState, needsNoResponse, htab, h]

/-- Going on in the list, or to its end. -/
theorem nextState_listed (cfg : Config) {s : ℕ} (hlo : uidsListSeparately ≤ s)
    (hhi : s < uidsListSeparatelyDone) (le err : Error) (d : Data) :
    nextState cfg s le d .getLine (.lit "keyedit.prompt") err =
      (if cfg.allUserIDsListed d then uidsListSeparatelyDone else s + 1, err,
        { d with started := true }) := by
  have htab : makeTable (s, .getLine, .lit "keyedit.prompt") = none := by
    cases hk : makeTable (s, .getLine, .lit "keyedit.prompt") with
    | none => rfl
    | some t => exact absurd ⟨hlo, hhi⟩ (not_list_of_entry _ (find_makeTable hk).1).1
  have hne : s ≠ uidsAnswerSignAll := by
    rintro rfl
    exact absurd hlo (by decide)
  have hall : cfg.allUserIDsListed { d with started := true } = cfg.allUserIDsListed d := rfl
  simp [nextState, needsNoResponse, htab, hne, hlo, hhi, hall]

omit [LibGpgError] in
/-- The iterator stands in the list or at its end. -/
def IteratorInList (cfg : Config) (ei : EditState Data) : Prop :=
  ei.data.nextId ≤ cfg.userIDs.length

omit [LibGpgError] in
theorem Acts.nextId_le {cfg : Config} {s : ℕ} {d d' : Data} {r : Option CString}
    (h : Acts cfg s d r d') (hd : d.nextId ≤ cfg.userIDs.length) :
    d'.nextId ≤ cfg.userIDs.length := by
  cases h with
  | list _ _ _ hu => exact (List.getElem?_eq_some_iff.mp hu).1
  | _ => exact hd

theorem nextId_of_action {cfg : Config} {s : ℕ} {d d' : Data} {err e : Error} {r : Option CString}
    (h : action cfg s d err = .ok (r, e, d')) (hd : d.nextId ≤ cfg.userIDs.length) :
    d'.nextId ≤ cfg.userIDs.length := by
  rcases action_cases h with ⟨_, hacts⟩ | ⟨_, _, rfl⟩
  · exact hacts.nextId_le hd
  · exact hd

/-- No callback moves the iterator out of the list. -/
theorem IteratorInList.step {cfg : Config} {ei ei' : EditState Data} {c : Call} {a : Answer}
    (h : IteratorInList cfg ei) (hcall : listing cfg ei c = .ok (a, ei')) :
    IteratorInList cfg ei' := by
  have hnextId : ∀ {s e d}, (gpgSignKeyEditInteractor cfg).nextState ei.state ei.error ei.data
      c.status c.args (statusToError c.status) = (s, e, d) → d.nextId ≤ cfg.userIDs.length := by
    intro s e d hnext
    rw [data_of_nextState hnext]
    exact h
  cases outcome_of_callback hcall with
  | mapped => exact h
  | rejected _ hnext _ => exact hnextId hnext
  | idle _ hnext => exact hnextId hnext
  | failed _ hnext _ _ _ hact _ => exact nextId_of_action hact (hnextId hnext)
  | silent _ hnext _ _ _ hact _ => exact nextId_of_action hact (hnextId hnext)
  | replied _ hnext _ _ _ hact =>
      simp only [IteratorInList, finish]
      split <;> exact nextId_of_action hact (hnextId hnext)

/-- **When the assertion of `nextUserID` fails**, after any run, on any descriptor: exactly
when a prompt for a command comes in `uidsAnswerSignAll` and the list has been used up. -/
theorem assertionFails_iff (cfg : Config) (ts : List (Exchange Data)) (ei : EditState Data)
    (h : Run (listing cfg) (EditInteractor.start (Data.init cfg)) ts ei) (c : Call) :
    listing cfg ei c = .error .assertionFailed ↔ ListExhausted cfg ei c := by
  have hin : IteratorInList cfg ei :=
    h.invariant (IteratorInList cfg) (Nat.zero_le _) fun _ _ _ _ hm hs => hm.step hs
  rw [listing, callback_eq_error_iff]
  constructor
  · rintro ⟨_, h0, s, e, d, hnext, _, hs, hact | ⟨hendless, -⟩⟩
    swap
    · cases hendless
    obtain ⟨hlist, hlen⟩ := action_eq_error_iff.mp hact
    have hd := data_of_nextState hnext
    subst hd
    have hend : cfg.allUserIDsListed ei.data = true := beq_iff_eq.mpr (le_antisymm hin hlen)
    cases hresp : needsNoResponse c.status with
    | true =>
        rw [show (gpgSignKeyEditInteractor cfg).nextState = nextState cfg from rfl,
          nextState_needsNoResponse _ _ _ _ _ _ hresp] at hnext
        exact absurd (Prod.mk.inj hnext).1.symm hs
    | false =>
        rcases (nextState_cases hresp hnext).2 with ⟨_, hmove⟩ | ⟨rfl, _⟩ | ⟨rfl, _⟩
        · rcases moves_into_list hmove hlist with hmore | ⟨hstate, hst, hargs, hsign⟩
          · rw [hend] at hmore
            cases hmore
          · exact ⟨h0, hstate, hst, hargs, hsign, hend⟩
        · exact absurd hlist.2 (by decide)
        · exact absurd hlist.2 (by decide)
  · rintro ⟨h0, hs, hst, hargs, hsign, hall⟩
    have herr : statusToError c.status = .none := by rw [hst]; rfl
    have hnext : (gpgSignKeyEditInteractor cfg).nextState ei.state ei.error ei.data c.status c.args
        (statusToError c.status) =
          (uidsListSeparately, .none, { ei.data with started := true }) := by
      rw [herr, hst, hargs, hs]
      exact nextState_list ei.error _ _ hsign
    refine ⟨by simp [herr], h0, _, _, _, hnext, Error.toBool_none, ?_, .inl ?_⟩
    · rw [hs]
      decide
    · have hlist : uidsListSeparately ≤ uidsListSeparately ∧
          uidsListSeparately < uidsListSeparatelyDone := by decide
      exact (action_eq_error_iff (d := { ei.data with started := true })).mpr
        ⟨hlist, (beq_iff_eq.mp hall).ge⟩

omit [LibGpgError] in
/-- One user ID to sign. -/
def oneUserID : Config := ⟨1, [0], 0⟩

omit [LibGpgError] in
/-- A callback that sent a line. -/
def sentLine (r : CString) : Answer := ⟨0, ⟨Fd.willing, r.line, false⟩, true⟩

omit [LibGpgError] in
/-- The iterator before the user ID was sent and after that. -/
def unlisted : Data := ⟨true, .lit "", 1, 0⟩

omit [LibGpgError] in
def allListed : Data := ⟨true, .decimal 1, 0, 1⟩

omit [LibGpgError] in
/-- Prompts for a command end the list and then lead back to the question for all user
IDs. -/
theorem exists_run_exhausted :
    letI := LibGpgError.documented
    ∃ ts, Run (listing oneUserID) (EditInteractor.start (Data.init oneUserID)) ts
      ⟨uidsAnswerSignAll, .none, allListed⟩ := by
  let := LibGpgError.documented
  let prompt := getLine "keyedit.prompt"
  let signAll := getBool "keyedit.sign_all.okay"
  have hcommand : serving oneUserID (EditInteractor.start (Data.init oneUserID)) prompt =
      .ok (sentLine oneUserID.command, ⟨command, .none, unlisted⟩) :=
    serving_replied rfl rfl (by decide) rfl
  have hsome : serving oneUserID ⟨command, .none, unlisted⟩ signAll =
      .ok (sentLine (.lit "N"), ⟨uidsAnswerSignAll, .none, unlisted⟩) :=
    serving_replied rfl rfl (by decide) rfl
  have hfirst : serving oneUserID ⟨uidsAnswerSignAll, .none, unlisted⟩ prompt =
      .ok (sentLine (.decimal 1), ⟨uidsListSeparately, .none, allListed⟩) :=
    serving_replied rfl rfl (by decide) rfl
  have hdone : serving oneUserID ⟨uidsListSeparately, .none, allListed⟩ prompt =
      .ok (sentLine oneUserID.command, ⟨uidsListSeparatelyDone, .none, allListed⟩) :=
    serving_replied rfl rfl (by decide) rfl
  have hagain : serving oneUserID ⟨uidsListSeparatelyDone, .none, allListed⟩ prompt =
      .ok (sentLine oneUserID.command, ⟨command, .none, allListed⟩) :=
    serving_replied rfl rfl (by decide) rfl
  have hback : serving oneUserID ⟨command, .none, allListed⟩ signAll =
      .ok (sentLine (.lit "N"), ⟨uidsAnswerSignAll, .none, allListed⟩) :=
    serving_replied rfl rfl (by decide) rfl
  exact ⟨_, .cons hcommand (.cons hsome (.cons hfirst (.cons hdone (.cons hagain
    (.single hback)))))⟩

omit [LibGpgError] in
theorem assertionFails_oneUserID :
    letI := LibGpgError.documented
    listing oneUserID ⟨uidsAnswerSignAll, .none, allListed⟩ (serve (getLine "keyedit.prompt")) =
        .error .assertionFailed ↔
      ListExhausted oneUserID ⟨uidsAnswerSignAll, .none, allListed⟩
        (serve (getLine "keyedit.prompt")) := by
  let := LibGpgError.documented
  obtain ⟨ts, hrun⟩ := exists_run_exhausted
  exact assertionFails_iff oneUserID ts _ hrun _

omit [LibGpgError] in
/-- The list is gone through a second time, and the assertion of `nextUserID` fails. -/
theorem not_forall_listing_ne_error :
    letI := LibGpgError.documented
    ¬ ∀ (cfg : Config) (ts : List (Exchange Data)) (ei : EditState Data),
      Run (listing cfg) (EditInteractor.start (Data.init cfg)) ts ei →
        ∀ c, listing cfg ei c ≠ .error .assertionFailed := by
  let := LibGpgError.documented
  intro h
  obtain ⟨ts, hrun⟩ := exists_run_exhausted
  exact h oneUserID ts _ hrun (serve (getLine "keyedit.prompt")) rfl

/-! ## The dialogue that lists the user IDs -/

omit [LibGpgError] in
/-- The prompt at which gpg waits for a command, or for a user ID. -/
def keyeditPrompt : Message := getLine "keyedit.prompt"

omit [LibGpgError] in
/-- The line with the command that signs. -/
def commandLine (cfg : Config) : List UInt8 := signCommand cfg.options ++ [newline]

omit [LibGpgError] in
theorem line_command (cfg : Config) : cfg.command.line = commandLine cfg := by
  rw [CString.line, cfg.bytes_command, commandLine]

omit [LibGpgError] in
/-- The line with the number of a user ID, counted from one. -/
def numberLine (u : UInt32) : List UInt8 := CString.numeral (u.toNat + 1) ++ [newline]

omit [LibGpgError] in
/-- The rest of the list from the `k`-th user ID on, and the command that follows it. -/
def listPart (cfg : Config) (k : ℕ) : Script :=
  (cfg.userIDs.drop k).map (fun u => (keyeditPrompt, numberLine u)) ++
    [(keyeditPrompt, commandLine cfg)]

omit [LibGpgError] in
/-- The prompts of the dialogue with their replies. -/
def listScript (cfg : Config) : Script :=
  (keyeditPrompt, commandLine cfg) ::
    (getBool "keyedit.sign_all.okay", (CString.lit "N").line) :: listPart cfg 0

omit [LibGpgError] in
/-- The script that is still open in a state of the interactor.  The state and the iterator
both say how many user IDs have been listed. -/
inductive Opens (cfg : Config) : EditState Data → Script → Prop
  | start {d : Data} (h : d.nextId = 0) : Opens cfg ⟨start, .none, d⟩ (listScript cfg)
  | command {d : Data} (h : d.nextId = 0) : Opens cfg ⟨command, .none, d⟩
      ((getBool "keyedit.sign_all.okay", (CString.lit "N").line) :: listPart cfg 0)
  | asked {d : Data} (h : d.nextId = 0) :
      Opens cfg ⟨uidsAnswerSignAll, .none, d⟩ (listPart cfg 0)
  | listed {d : Data} {k : ℕ} (hk : k < cfg.userIDs.length) (h : d.nextId = k + 1) :
      Opens cfg ⟨uidsListSeparately + k, .none, d⟩ (listPart cfg (k + 1))
  | done (d : Data) : Opens cfg ⟨uidsListSeparatelyDone, .none, d⟩ []

omit [LibGpgError] in
theorem listPart_of_lt {cfg : Config} {k : ℕ} {u : UInt32} (h : cfg.userIDs[k]? = some u) :
    listPart cfg k = (keyeditPrompt, numberLine u) :: listPart cfg (k + 1) := by
  obtain ⟨hk, hu⟩ := List.getElem?_eq_some_iff.mp h
  rw [listPart, List.drop_eq_getElem_cons hk, hu]
  rfl

omit [LibGpgError] in
theorem listPart_length (cfg : Config) :
    listPart cfg cfg.userIDs.length = [(keyeditPrompt, commandLine cfg)] := by
  simp [listPart]

theorem nextState_table {cfg : Config} {s s' : ℕ} {le err : Error} {d : Data} {m : Message}
    (hresp : needsNoResponse m.1 = false) (h : makeTable (s, m) = some s') :
    nextState cfg s le d m.1 m.2 err = (s', err, { d with started := true }) := by
  have h' : makeTable (s, m.1, m.2) = some s' := h
  simp [nextState, hresp, h']

/-- In a state of the list, `action` sends the number of the next user ID. -/
theorem action_listed {cfg : Config} {s k : ℕ} {u : UInt32} (hlo : uidsListSeparately ≤ s)
    (hhi : s < uidsListSeparatelyDone) (hu : cfg.userIDs[k]? = some u) {d : Data}
    (hd : d.nextId = k) (err : Error) :
    ∃ d', action cfg s d err = .ok (some (.decimal (u + 1)), err, d') ∧ d'.nextId = k + 1 := by
  subst hd
  have hnext : cfg.nextUserID d =
      .ok (u + 1, { d with currentId := d.nextId, nextId := d.nextId + 1 }) := by
    simp only [Config.nextUserID, hu]
  exact ⟨_, by rw [action_list hlo hhi, hnext], rfl⟩

omit [LibGpgError] in
/-- The number that `action` sends is exact. -/
theorem line_decimal_succ {u : UInt32} (h : u.toNat < 2 ^ 32 - 1) :
    (CString.decimal (u + 1)).line = numberLine u := by
  have hone : (1 : UInt32).toNat = 1 := rfl
  have hsucc : (u + 1).toNat = u.toNat + 1 := by
    rw [UInt32.toNat_add, hone]
    omega
  rw [CString.line, CString.bytes_decimal, hsucc, numberLine]

/-- The lists that the dialogue is for: some user IDs, no more than there are states, and
none whose number is out of range. -/
structure Listable (cfg : Config) : Prop where
  ne_nil : cfg.userIDs ≠ []
  length_le : cfg.userIDs.length ≤ 999997
  lt : ∀ u ∈ cfg.userIDs, u.toNat < 2 ^ 32 - 1

/-- The next user ID of the list is sent, from the state before it. -/
theorem answer_listed {cfg : Config} (hcfg : Listable cfg) {s k : ℕ} {d : Data} {u : UInt32}
    (hu : cfg.userIDs[k]? = some u) (hd : d.nextId = k) (hs : uidsListSeparately + k ≠ s)
    (hnext : nextState cfg s .none d .getLine (.lit "keyedit.prompt") .none =
      (uidsListSeparately + k, .none, { d with started := true })) :
    ∃ a ei', serving cfg ⟨s, .none, d⟩ keyeditPrompt = .ok (a, ei') ∧ a.ret = 0 ∧
      a.fd.accepted = numberLine u ∧ Opens cfg ei' (listPart cfg (k + 1)) := by
  obtain ⟨hk, hmem⟩ := List.getElem?_eq_some_iff.mp hu
  have hlen := hcfg.length_le
  have hhi : uidsListSeparately + k < uidsListSeparatelyDone := by
    simp only [uidsListSeparately, uidsListSeparatelyDone]
    omega
  obtain ⟨d', hact, hd'⟩ := action_listed (d := { d with started := true })
    (Nat.le_add_right _ _) hhi hu hd .none
  exact ⟨_, _, serving_replied rfl hnext hs hact, rfl,
    line_decimal_succ (hcfg.lt u (hmem ▸ List.getElem_mem hk)), .listed hk hd'⟩

/-- **One prompt of the dialogue** gets the reply of the script. -/
theorem answer_of_opens {cfg : Config} (hcfg : Listable cfg) {ei : EditState Data} {sc : Script}
    (h : Opens cfg ei sc) {p : Message} {l : List UInt8} {rest : Script}
    (hsc : sc = (p, l) :: rest) :
    ∃ a ei', serving cfg ei p = .ok (a, ei') ∧ a.ret = 0 ∧ a.fd.accepted = l ∧
      Opens cfg ei' rest := by
  have hsign : cfg.signAll = false := by simpa [Config.signAll] using hcfg.ne_nil
  cases h with
  | @start d h =>
      obtain ⟨hp, rfl⟩ := List.cons.inj hsc
      obtain ⟨rfl, rfl⟩ := Prod.mk.inj hp
      have htab : makeTable (start, keyeditPrompt) = some command := by decide
      exact ⟨_, _, serving_replied rfl (nextState_table rfl htab) (by decide) rfl, rfl,
        line_command cfg, .command h⟩
  | @command d h =>
      obtain ⟨hp, rfl⟩ := List.cons.inj hsc
      obtain ⟨rfl, rfl⟩ := Prod.mk.inj hp
      have htab : makeTable (command, getBool "keyedit.sign_all.okay") =
        some uidsAnswerSignAll := by decide
      have hact : action cfg uidsAnswerSignAll { d with started := true } .none =
          .ok (some (.lit "N"), .none, { d with started := true }) := by
        rw [show CString.lit "N" = answer cfg.signAll by rw [hsign]; rfl]
        rfl
      exact ⟨_, _, serving_replied rfl (nextState_table rfl htab) (by decide) hact, rfl, rfl,
        .asked h⟩
  | @asked d h =>
      obtain ⟨u, hu⟩ : ∃ u, cfg.userIDs[0]? = some u :=
        ⟨_, List.getElem?_eq_getElem (List.length_pos_iff.mpr hcfg.ne_nil)⟩
      rw [listPart_of_lt hu] at hsc
      obtain ⟨hp, rfl⟩ := List.cons.inj hsc
      obtain ⟨rfl, rfl⟩ := Prod.mk.inj hp
      exact answer_listed hcfg hu h (by decide) (nextState_list .none .none d hsign)
  | @listed d k hk h =>
      have hlo : uidsListSeparately ≤ uidsListSeparately + k := Nat.le_add_right _ _
      have hhi : uidsListSeparately + k < uidsListSeparatelyDone := by
        have := hcfg.length_le
        simp only [uidsListSeparately, uidsListSeparatelyDone]
        omega
      by_cases hend : k + 1 = cfg.userIDs.length
      · -- the list is finished
        rw [hend, listPart_length] at hsc
        obtain ⟨hp, rfl⟩ := List.cons.inj hsc
        obtain ⟨rfl, rfl⟩ := Prod.mk.inj hp
        have hall : cfg.allUserIDsListed d = true := beq_iff_eq.mpr (h.trans hend)
        have hnext := nextState_listed cfg hlo hhi .none .none d
        rw [hall, if_pos rfl] at hnext
        exact ⟨_, _, serving_replied rfl hnext hhi.ne' rfl, rfl, line_command cfg, .done _⟩
      · obtain ⟨u, hu⟩ : ∃ u, cfg.userIDs[k + 1]? = some u :=
          ⟨_, List.getElem?_eq_getElem (by omega)⟩
        rw [listPart_of_lt hu] at hsc
        obtain ⟨hp, rfl⟩ := List.cons.inj hsc
        obtain ⟨rfl, rfl⟩ := Prod.mk.inj hp
        have hmore : cfg.allUserIDsListed d = false :=
          beq_eq_false_iff_ne.mpr fun hd => hend (h.symm.trans hd)
        have hnext := nextState_listed cfg hlo hhi .none .none d
        rw [hmore, if_neg Bool.false_ne_true] at hnext
        exact answer_listed hcfg hu h (by omega) hnext
  | done d => cases hsc

/-- A status that needs no response, and is no error, leaves the script as it is. -/
theorem quiet_of_opens {cfg : Config} {ei : EditState Data} {sc : Script} (h : Opens cfg ei sc)
    {m : Message} (hresp : needsResponse m = false) (herr : isError m = false) :
    ∃ a ei', serving cfg ei m = .ok (a, ei') ∧ a.ret = 0 ∧ a.fd.accepted = [] ∧
      Opens cfg ei' sc := by
  have hno : needsNoResponse m.1 = true := by simpa [needsResponse] using hresp
  have hclear : ei.error = .none := by cases h <;> rfl
  have hopens : Opens cfg ⟨ei.state, ei.error, { ei.data with started := true }⟩ sc := by
    cases h with
    | start h => exact .start h
    | command h => exact .command h
    | asked h => exact .asked h
    | listed hk h => exact .listed hk h
    | done d => exact .done _
  have hidle := Outcome.idle (I := gpgSignKeyEditInteractor cfg) (c := serve m) herr
    (nextState_needsNoResponse cfg ei.state ei.error _ ei.data m.2 hno) herr (.inl rfl)
  exact ⟨_, _, hidle.callback_eq, by rw [hclear]; rfl, rfl, hopens⟩

/-- A beginning of the script, with any quiet statuses between its prompts, is replied to as
written. -/
theorem exists_run_of_opens {cfg : Config} (hcfg : Listable cfg) :
    ∀ (ms : List Message) {ei : EditState Data} {sc : Script}, Opens cfg ei sc →
      ms.filter needsResponse <+: sc.map Prod.fst → (∀ m ∈ ms, isError m = false) →
      ∃ ts ei', Run (serving cfg) ei ts ei' ∧ ts.map Transition.input = ms ∧
        (∀ t ∈ ts, t.output.ret = 0 ∧
          (needsResponse t.input = false → t.output.fd.accepted = [])) ∧
        (ts.filter fun t => needsResponse t.input).map (fun t => t.output.fd.accepted) =
          (sc.take (ms.filter needsResponse).length).map Prod.snd := by
  intro ms
  induction ms with
  | nil =>
      intro ei sc _ _ _
      exact ⟨[], ei, .nil ei, rfl, by simp, by simp⟩
  | cons m ms ih =>
      intro ei sc h hpre herr
      have herr' := List.forall_mem_cons.mp herr
      cases hresp : needsResponse m with
      | false =>
          rw [List.filter_cons_of_neg (by simp [hresp])] at hpre ⊢
          obtain ⟨a, ei₁, hstep, hret, hsent, hopens⟩ := quiet_of_opens h hresp herr'.1
          obtain ⟨ts, ei', hrun, hin, hts, hreplies⟩ := ih hopens hpre herr'.2
          refine ⟨_, ei', .cons hstep hrun, by simp [hin], ?_, ?_⟩
          · exact List.forall_mem_cons.mpr ⟨⟨hret, fun _ => hsent⟩, hts⟩
          · rw [List.filter_cons_of_neg (by simp [hresp]), hreplies]
      | true =>
          rw [List.filter_cons_of_pos hresp] at hpre ⊢
          rcases sc with _ | ⟨⟨p, l⟩, rest⟩
          · simp at hpre
          obtain ⟨rfl, hpre'⟩ := List.cons_prefix_cons.mp hpre
          obtain ⟨a, ei₁, hstep, hret, hsent, hopens⟩ := answer_of_opens hcfg h rfl
          obtain ⟨ts, ei', hrun, hin, hts, hreplies⟩ := ih hopens hpre' herr'.2
          refine ⟨_, ei', .cons hstep hrun, by simp [hin], ?_, ?_⟩
          · refine List.forall_mem_cons.mpr ⟨⟨hret, fun hno => ?_⟩, hts⟩
            rw [hresp] at hno
            cases hno
          · rw [List.filter_cons_of_pos (by exact hresp), List.map_cons, hreplies, hsent]
            rfl

/-- The replies of the dialogue when gpg prompts `m` times after the question for all user
IDs: the command, `N`, the numbers of the first `m` user IDs, and the command once more if
all were listed and there is one prompt left. -/
def listReplies (cfg : Config) (m : ℕ) : List (List UInt8) :=
  commandLine cfg :: (CString.lit "N").line :: (cfg.userIDs.take m).map numberLine ++
    if m = cfg.userIDs.length + 1 then [commandLine cfg] else []

/-- The prompts of the dialogue, `m` of them after the question for all user IDs. -/
def listPrompts (m : ℕ) : List Message :=
  keyeditPrompt :: getBool "keyedit.sign_all.okay" :: List.replicate m keyeditPrompt

omit [LibGpgError] in
theorem fst_listScript (cfg : Config) :
    (listScript cfg).map Prod.fst = listPrompts (cfg.userIDs.length + 1) := by
  have hlist : (listPart cfg 0).map Prod.fst =
      List.replicate (cfg.userIDs.length + 1) keyeditPrompt := by
    simp [listPart, Function.comp_def, List.replicate_succ']
  simp only [listScript, List.map_cons, hlist, listPrompts]

omit [LibGpgError] in
theorem listPrompts_prefix {m n : ℕ} (h : m ≤ n) : listPrompts m <+: listPrompts n := by
  have hrep : List.replicate m keyeditPrompt <+: List.replicate n keyeditPrompt :=
    ⟨List.replicate (n - m) keyeditPrompt, by
      rw [List.replicate_append_replicate, Nat.add_sub_cancel' h]⟩
  simp only [listPrompts, List.cons_prefix_cons, true_and]
  exact hrep

omit [LibGpgError] in
/-- The replies of the script to its first prompts. -/
theorem snd_take_listScript {cfg : Config} {m : ℕ} (hm : m ≤ cfg.userIDs.length + 1) :
    ((listScript cfg).take (listPrompts m).length).map Prod.snd = listReplies cfg m := by
  have hlist : ((listPart cfg 0).take m).map Prod.snd = (cfg.userIDs.take m).map numberLine ++
      if m = cfg.userIDs.length + 1 then [commandLine cfg] else [] := by
    simp only [listPart, List.drop_zero, List.take_append, List.length_map, List.map_append,
      ← List.map_take, List.map_map, Function.comp_def]
    split_ifs with hall
    · rw [hall, Nat.add_sub_cancel_left]
      rfl
    · rw [Nat.sub_eq_zero_of_le (by omega)]
      rfl
  simp only [listPrompts, listScript, List.length_cons, List.length_replicate,
    List.take_succ_cons, List.map_cons, hlist, listReplies, List.cons_append]

/-- **The law of the listing.**  On every sequence of status lines with these prompts, and
any number of quiet statuses between them, the interactor runs to the end; all callbacks
return zero, the prompts get the replies in order, one each, and nothing else is sent. -/
def ListsUserIDs (cfg : Config) : Prop :=
  ∀ (m : ℕ) (ms : List Message), m ≤ cfg.userIDs.length + 1 →
    ms.filter needsResponse = listPrompts m → (∀ s ∈ ms, isError s = false) →
    (∃ ts ei', Run (serving cfg) (EditInteractor.start (Data.init cfg)) ts ei' ∧
      ts.map Transition.input = ms) ∧
    ∀ ts ei', Run (serving cfg) (EditInteractor.start (Data.init cfg)) ts ei' →
      ts.map Transition.input = ms →
      (∀ t ∈ ts, t.output.ret = 0) ∧
      (ts.filter fun t => needsResponse t.input).map (fun t => t.output.fd.accepted) =
        listReplies cfg m ∧
      ∀ t ∈ ts, needsResponse t.input = false → t.output.fd.accepted = []

/-- **The interactor lists the user IDs in order**, whatever their number. -/
theorem listsUserIDs (cfg : Config) (hne : cfg.userIDs ≠ []) (hlen : cfg.userIDs.length ≤ 999997)
    (hlt : ∀ u ∈ cfg.userIDs, u.toNat < 2 ^ 32 - 1) : ListsUserIDs cfg := by
  intro m ms hm hms herr
  have hcfg : Listable cfg := ⟨hne, hlen, hlt⟩
  have hpre : ms.filter needsResponse <+: (listScript cfg).map Prod.fst := by
    rw [hms, fst_listScript]
    exact listPrompts_prefix hm
  obtain ⟨ts, ei', hrun, hin, hts, hreplies⟩ :=
    exists_run_of_opens hcfg ms (.start rfl : Opens cfg (EditInteractor.start (Data.init cfg)) _)
      hpre herr
  refine ⟨⟨ts, ei', hrun, hin⟩, ?_⟩
  intro us ei'' hrun' hin'
  obtain ⟨rfl, rfl⟩ := hrun.eq_of_inputs hrun' (hin.trans hin'.symm)
  refine ⟨fun t ht => (hts t ht).1, ?_, fun t ht => (hts t ht).2⟩
  rw [hreplies, hms, snd_take_listScript hm]

omit [LibGpgError] in
/-- Two user IDs, the first and the fifth. -/
theorem listsUserIDs_two :
    letI := LibGpgError.documented
    ListsUserIDs ⟨1, [0, 4], 0⟩ :=
  letI := LibGpgError.documented
  listsUserIDs ⟨1, [0, 4], 0⟩ (by decide) (by decide) (by simp)

end Gpgmepp.GpgSignKeyEditInteractor
