import Gpgmepp.EditInteractor
import Mathlib.Logic.Function.Basic

/-!
# `GpgSignKeyEditInteractor`

Signs user IDs of a key.  The transitions are in a table, filled with `tab[key] = state`
so that a later entry for a key replaces an earlier one, and in a switch for what
depends on the list of user IDs.  All states from `uidsListSeparately` up to
`uidsListSeparatelyDone` answer with one user ID each: the state is increased for
every user ID, so that `action` is called.

## Main definitions

* `Config`, `Data` — what is set before the run, and what changes in it.
* `makeTable`, `find_makeTable` — the transition table.
* `action`, `nextState`, `gpgSignKeyEditInteractor`.
-/

namespace Gpgmepp.GpgSignKeyEditInteractor

open EditInteractor

/-- The members of `Private` that the setters fill.  `setCheckLevel` asserts that the
level is at most `3`. -/
structure Config where
  options : Int32
  userIDs : List UInt32
  checkLevel : Fin 4

/-- The members of `Private` that a run changes.  The iterators into `userIDs` are
positions. -/
structure Data where
  started : Bool
  scratch : CString
  currentId : ℕ
  nextId : ℕ

/-- The members after `setUserIDsToSign`. -/
def Data.init (cfg : Config) : Data := ⟨false, .lit "", cfg.userIDs.length, 0⟩

/-! The enumeration `SignOption`. -/

def exportable : Int32 := 0x1
def nonRevocable : Int32 := 0x2
def trust : Int32 := 0x4

/-- `Private::command`. -/
def Config.command (cfg : Config) : CString :=
  let isLocal := cfg.options &&& exportable == 0
  let nonRevoc := cfg.options &&& nonRevocable != 0
  let trust := cfg.options &&& trust != 0
  if isLocal && nonRevoc && trust then .lit "ltnrsign"
  else if isLocal && nonRevoc then .lit "lnrsign"
  else if isLocal && trust then .lit "ltsign"
  else if isLocal then .lit "lsign"
  else if nonRevoc && trust then .lit "tnrsign"
  else if nonRevoc then .lit "nrsign"
  else if trust then .lit "tsign"
  else .lit "sign"

/-- `Private::signAll`. -/
def Config.signAll (cfg : Config) : Bool := cfg.userIDs.isEmpty

/-- `Private::nextUserID`: the user ID the iterator stands at, counted from one.  At
the end of the list its assertion fails. -/
def Config.nextUserID (cfg : Config) (d : Data) : Except NoReturn (UInt32 × Data) :=
  match cfg.userIDs[d.nextId]? with
  | none => .error .assertionFailed
  | some u => .ok (u + 1, { d with currentId := d.nextId, nextId := d.nextId + 1 })

/-- `Private::allUserIDsListed`. -/
def Config.allUserIDsListed (cfg : Config) (d : Data) : Bool := d.nextId == cfg.userIDs.length

/-! The enumeration `SignKeyState`. -/

abbrev start : ℕ := startState
abbrev command : ℕ := 1
abbrev uidsAnswerSignAll : ℕ := 2
abbrev uidsListSeparately : ℕ := 3
abbrev uidsListSeparatelyDone : ℕ := 1000000
abbrev setExpire : ℕ := 1000001
abbrev setCheckLevel : ℕ := 1000002
abbrev setTrustValue : ℕ := 1000003
abbrev setTrustDepth : ℕ := 1000004
abbrev setTrustRegexp : ℕ := 1000005
abbrev confirm : ℕ := 1000006
abbrev quit : ℕ := 1000007
abbrev save : ℕ := 1000008
abbrev error : ℕ := errorState

/-- `answer`. -/
def answer (b : Bool) : CString := if b then .lit "Y" else .lit "N"

/-- The keys of the transition table: state, status and argument. -/
abbrev Key := ℕ × StatusCode × CString

/-- `TransitionMap`; `tab[key] = s` is `Function.update tab key s`. -/
abbrev TransitionMap := Key → Option ℕ

/-- The calls of `addEntry`, in the order of the source. -/
def entries : List (Key × ℕ) :=
  [((start, .getLine, .lit "keyedit.prompt"), command),
   ((command, .getBool, .lit "keyedit.sign_all.okay"), uidsAnswerSignAll),
   ((command, .getBool, .lit "sign_uid.okay"), confirm),
   ((uidsAnswerSignAll, .getBool, .lit "sign_uid.okay"), confirm),
   ((uidsAnswerSignAll, .getLine, .lit "sign_uid.expire"), setExpire),
   ((uidsAnswerSignAll, .getLine, .lit "sign_uid.class"), setCheckLevel),
   ((setTrustValue, .getLine, .lit "trustsign_prompt.trust_depth"), setTrustDepth),
   ((setTrustDepth, .getLine, .lit "trustsign_prompt.trust_regexp"), setTrustRegexp),
   ((setTrustRegexp, .getLine, .lit "sign_uid.okay"), confirm),
   ((setCheckLevel, .getBool, .lit "sign_uid.okay"), confirm),
   ((setExpire, .getBool, .lit "sign_uid.class"), setCheckLevel),
   ((confirm, .getBool, .lit "sign_uid.local_promote_okay"), confirm),
   ((confirm, .getBool, .lit "sign_uid.okay"), confirm),
   ((confirm, .getLine, .lit "keyedit.prompt"), command),
   ((confirm, .getLine, .lit "trustsign_prompt.trust_value"), setTrustValue),
   ((confirm, .getLine, .lit "sign_uid.expire"), setExpire),
   ((confirm, .getLine, .lit "sign_uid.class"), setCheckLevel),
   ((uidsListSeparatelyDone, .getBool, .lit "sign_uid.local_promote_okay"), confirm),
   ((uidsListSeparatelyDone, .getLine, .lit "keyedit.prompt"), command),
   ((uidsListSeparatelyDone, .getLine, .lit "trustsign_prompt.trust_value"), setTrustValue),
   ((uidsListSeparatelyDone, .getLine, .lit "sign_uid.expire"), setExpire),
   ((uidsListSeparatelyDone, .getLine, .lit "sign_uid.class"), setCheckLevel),
   ((uidsListSeparatelyDone, .getBool, .lit "sign_uid.okay"), confirm),
   ((confirm, .getLine, .lit "keyedit.prompt"), quit),
   ((error, .getLine, .lit "keyedit.prompt"), quit),
   ((quit, .getBool, .lit "keyedit.save.okay"), save)]

/-- `makeTable`. -/
def makeTable : TransitionMap :=
  entries.foldl (fun tab e => Function.update tab e.1 (some e.2)) fun _ => none

/-- What a table built by assignments holds was assigned. -/
private theorem mem_of_foldl_update {K V : Type*} [DecidableEq K] {k : K} {v : V} :
    ∀ (es : List (K × V)) (tab : K → Option V),
      es.foldl (fun (tab : K → Option V) e => Function.update tab e.1 (some e.2)) tab k = some v →
        (k, v) ∈ es ∨ tab k = some v := by
  intro es
  induction es with
  | nil => intro tab h; exact .inr h
  | cons e es ih =>
      intro tab h
      rcases ih (Function.update tab e.1 (some e.2)) h with hmem | htab
      · exact .inl (List.mem_cons_of_mem _ hmem)
      · by_cases hk : k = e.1
        · subst hk
          rw [Function.update_self] at htab
          obtain rfl := Option.some.inj htab
          exact .inl List.mem_cons_self
        · rw [Function.update_of_ne hk] at htab
          exact .inr htab

/-- The table holds entries of the list, and of the two for the prompt after a
confirmation the later one. -/
theorem find_makeTable {k : Key} {s : ℕ} (h : makeTable k = some s) :
    (k, s) ∈ entries ∧ (k = (confirm, .getLine, .lit "keyedit.prompt") → s = quit) := by
  refine ⟨?_, ?_⟩
  · simpa using mem_of_foldl_update entries (fun _ => none) h
  · rintro rfl
    have hquit : makeTable (confirm, .getLine, .lit "keyedit.prompt") = some quit := by decide
    exact (Option.some.inj (hquit.symm.trans h)).symm

/-- The digits of `check_level_strings`. -/
def checkLevelStrings : Fin 4 → CString
  | 0 => .lit "0"
  | 1 => .lit "1"
  | 2 => .lit "2"
  | 3 => .lit "3"

variable [LibGpgError]

/-- `GpgSignKeyEditInteractor::action`. -/
def action (cfg : Config) (state : ℕ) (d : Data) (err : Error) :
    Except NoReturn (Option CString × Error × Data) :=
  if state = command then .ok (some cfg.command, err, d)
  else if state = uidsAnswerSignAll then .ok (some (answer cfg.signAll), err, d)
  else if state = uidsListSeparatelyDone then .ok (some cfg.command, err, d)
  else if state = setExpire then .ok (some (answer true), err, d)
  else if state = setTrustValue ∨ state = setTrustDepth ∨ state = setTrustRegexp then
    .ok (none, err, d)
  else if state = setCheckLevel then .ok (some (checkLevelStrings cfg.checkLevel), err, d)
  else if state = confirm then .ok (some (answer true), err, d)
  else if state = quit then .ok (some (.lit "quit"), err, d)
  else if state = save then .ok (some (answer true), err, d)
  else if uidsListSeparately ≤ state ∧ state < uidsListSeparatelyDone then
    match cfg.nextUserID d with
    | .error f => .error f
    | .ok (n, d) => .ok (some (.decimal n), err, { d with scratch := .decimal n })
  else .ok (none, .fromCodeUser1 .general, d)

/-- `GpgSignKeyEditInteractor::nextState`. -/
def nextState (cfg : Config) (state : ℕ) (lastError : Error) (d : Data)
    (status : StatusCode) (args : CString) (err : Error) : ℕ × Error × Data :=
  let d := { d with started := true }
  if needsNoResponse status then (state, err, d)
  else
    match makeTable (state, status, args) with
    | some s => (s, err, d)
    | none =>
        -- cases that cannot be handled via the map
        if state = uidsAnswerSignAll ∧ status = .getLine ∧ args = .lit "keyedit.prompt" then
          if cfg.signAll then (error, .fromCodeUser1 .unusablePubkey, d)
          else (uidsListSeparately, err, d)
        else if (uidsListSeparately ≤ state ∧ state < uidsListSeparatelyDone) ∧
            status = .getLine ∧ args = .lit "keyedit.prompt" then
          (if cfg.allUserIDsListed d then uidsListSeparatelyDone else state + 1, err, d)
        else if state = confirm ∨ state = error then (error, lastError, d)
        else (error, .fromCodeUser1 .general, d)

/-! ## What the two functions do -/

omit [LibGpgError] in
/-- The states of the list are none of the other states. -/
theorem ne_of_list {s t : ℕ} (hlo : uidsListSeparately ≤ s) (hhi : s < uidsListSeparatelyDone)
    (ht : ¬ (uidsListSeparately ≤ t ∧ t < uidsListSeparatelyDone)) : s ≠ t := by
  rintro rfl
  exact ht ⟨hlo, hhi⟩

omit [LibGpgError] in
/-- The moves of the interactor that are not errors, on a status that needs a response. -/
inductive Moves (cfg : Config) (d : Data) : ℕ → StatusCode → CString → ℕ → Prop
  /-- A move of the table. -/
  | table {s s' : ℕ} {st : StatusCode} {args : CString} (h : makeTable (s, st, args) = some s') :
      Moves cfg d s st args s'
  /-- The start of the list of user IDs. -/
  | list (h : cfg.signAll = false) :
      Moves cfg d uidsAnswerSignAll .getLine (.lit "keyedit.prompt") uidsListSeparately
  /-- The next user ID. -/
  | next {s : ℕ} (hlo : uidsListSeparately ≤ s) (hhi : s < uidsListSeparatelyDone)
      (h : cfg.allUserIDsListed d = false) :
      Moves cfg d s .getLine (.lit "keyedit.prompt") (s + 1)
  /-- The end of the list. -/
  | done {s : ℕ} (hlo : uidsListSeparately ≤ s) (hhi : s < uidsListSeparatelyDone)
      (h : cfg.allUserIDsListed d = true) :
      Moves cfg d s .getLine (.lit "keyedit.prompt") uidsListSeparatelyDone

/-- `nextState`, inverted. -/
theorem nextState_cases {cfg : Config} {s s' : ℕ} {le err e : Error} {d d' : Data}
    {st : StatusCode} {args : CString} (hst : needsNoResponse st = false)
    (h : nextState cfg s le d st args err = (s', e, d')) :
    d' = { d with started := true } ∧
      ((e = err ∧ Moves cfg d s st args s') ∨
        (s' = error ∧ ∃ n, n ≠ .noError ∧ n ≠ .canceled ∧ e = .fromCodeUser1 n) ∨
        (s' = error ∧ e = le ∧ (s = confirm ∨ s = error))) := by
  simp only [nextState, hst, Bool.false_eq_true, if_false] at h
  cases htab : makeTable (s, st, args) with
  | some t =>
      simp only [htab, Prod.mk.injEq] at h
      obtain ⟨rfl, rfl, rfl⟩ := h
      exact ⟨rfl, .inl ⟨rfl, .table htab⟩⟩
  | none =>
      simp only [htab] at h
      split_ifs at h with hall hsign hlist hlisted hconf <;>
        (simp only [Prod.mk.injEq] at h; obtain ⟨rfl, rfl, rfl⟩ := h; refine ⟨rfl, ?_⟩)
      · exact .inr (.inl ⟨rfl, _, by decide, by decide, rfl⟩)
      · obtain ⟨rfl, rfl, rfl⟩ := hall
        exact .inl ⟨rfl, .list (by simpa using hsign)⟩
      · obtain ⟨⟨hlo, hhi⟩, rfl, rfl⟩ := hlist
        exact .inl ⟨rfl, .done hlo hhi hlisted⟩
      · obtain ⟨⟨hlo, hhi⟩, rfl, rfl⟩ := hlist
        exact .inl ⟨rfl, .next hlo hhi (by simpa [Config.allUserIDsListed] using hlisted)⟩
      · exact .inr (.inr ⟨rfl, rfl, hconf⟩)
      · exact .inr (.inl ⟨rfl, _, by decide, by decide, rfl⟩)

omit [LibGpgError] in
/-- The states with an action and its result. -/
inductive Acts (cfg : Config) : ℕ → Data → Option CString → Data → Prop
  | command (d : Data) : Acts cfg command d (some cfg.command) d
  | answerSignAll (d : Data) : Acts cfg uidsAnswerSignAll d (some (answer cfg.signAll)) d
  | listDone (d : Data) : Acts cfg uidsListSeparatelyDone d (some cfg.command) d
  | setExpire (d : Data) : Acts cfg setExpire d (some (answer true)) d
  | trust {s : ℕ} (d : Data) (h : s = setTrustValue ∨ s = setTrustDepth ∨ s = setTrustRegexp) :
      Acts cfg s d none d
  | checkLevel (d : Data) :
      Acts cfg setCheckLevel d (some (checkLevelStrings cfg.checkLevel)) d
  | confirm (d : Data) : Acts cfg confirm d (some (answer true)) d
  | quit (d : Data) : Acts cfg quit d (some (.lit "quit")) d
  | save (d : Data) : Acts cfg save d (some (answer true)) d
  | list {s : ℕ} (d : Data) {u : UInt32} (hlo : uidsListSeparately ≤ s)
      (hhi : s < uidsListSeparatelyDone) (hu : cfg.userIDs[d.nextId]? = some u) :
      Acts cfg s d (some (.decimal (u + 1)))
        { d with currentId := d.nextId, nextId := d.nextId + 1, scratch := .decimal (u + 1) }

/-- `action`, inverted. -/
theorem action_cases {cfg : Config} {s : ℕ} {d d' : Data} {err e : Error} {r : Option CString}
    (h : action cfg s d err = .ok (r, e, d')) :
    (e = err ∧ Acts cfg s d r d') ∨ (r = none ∧ e = .fromCodeUser1 .general ∧ d' = d) := by
  revert h
  fun_cases action cfg s d err <;> intro h
  case case10 => cases h
  all_goals
    simp only [Except.ok.injEq, Prod.mk.injEq] at h
    obtain ⟨rfl, rfl, rfl⟩ := h
  case case1 hs => exact .inl ⟨rfl, hs ▸ .command d⟩
  case case2 hs => exact .inl ⟨rfl, hs ▸ .answerSignAll d⟩
  case case3 hs => exact .inl ⟨rfl, hs ▸ .listDone d⟩
  case case4 hs => exact .inl ⟨rfl, hs ▸ .setExpire d⟩
  case case5 hs => exact .inl ⟨rfl, .trust d hs⟩
  case case6 hs => exact .inl ⟨rfl, hs ▸ .checkLevel d⟩
  case case7 hs => exact .inl ⟨rfl, hs ▸ .confirm d⟩
  case case8 hs => exact .inl ⟨rfl, hs ▸ .quit d⟩
  case case9 hs => exact .inl ⟨rfl, hs ▸ .save d⟩
  case case11 hs n d₁ hnext =>
    simp only [Config.nextUserID] at hnext
    cases hu : cfg.userIDs[d.nextId]? with
    | none => simp [hu] at hnext
    | some u =>
        simp only [hu, Except.ok.injEq, Prod.mk.injEq] at hnext
        obtain ⟨rfl, rfl⟩ := hnext
        exact .inl ⟨rfl, .list d hs.1 hs.2 hu⟩
  case case12 => exact .inr ⟨rfl, rfl, rfl⟩

end GpgSignKeyEditInteractor

open GpgSignKeyEditInteractor in
/-- `GpgSignKeyEditInteractor`, configured by its setters. -/
def gpgSignKeyEditInteractor [LibGpgError] (cfg : Config) : EditInteractor Data where
  nextState state lastError d status args err := nextState cfg state lastError d status args err
  action state _ d err := action cfg state d err

end Gpgmepp
