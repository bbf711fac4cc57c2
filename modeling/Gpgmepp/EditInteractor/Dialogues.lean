import Gpgmepp.EditInteractor.Scripted

/-!
# The dialogues of three interactors

Setting the expiry date, setting the owner trust and adding a user ID are scripted:
the interactors answer one dialogue each, or one of two, and refuse everything else.  A
configured string is the answer to a prompt; one of `2 ^ 31` bytes or more breaks the
dialogue off, even if gpg takes every byte of it, since the number of its bytes is no `int`.

## Main definitions

* `trustDigit` — the answer that gpg expects for an owner trust.
* `expiryScript`, `ownerTrustScript`, `ultimateScript`, `userIDScript` — the scripts.
* `speaksDialogue_iff` — when the interactors speak the dialogues of their scripts.
-/

namespace Gpgmepp.EditInteractor

open Dialogue

/-- How every edit ends. -/
def quitAndSave : Script :=
  [(getLine "keyedit.prompt", (CString.lit "quit").line),
   (getBool "keyedit.save.okay", (CString.lit "Y").line)]

/-- The dialogue that sets the expiry date. -/
def expiryScript (strtime : StdString) : Script :=
  (getLine "keyedit.prompt", (CString.lit "expire").line) ::
    (getLine "keygen.valid", (CString.cStr strtime).line) :: quitAndSave

/-- The number under which gpg asks for an owner trust. -/
def trustDigit : OwnerTrust → String
  | .unknown | .undefined => "1"
  | .never => "2"
  | .marginal => "3"
  | .full => "4"
  | .ultimate => "5"

/-- The dialogue that sets the owner trust. -/
def ownerTrustScript (ownertrust : OwnerTrust) : Script :=
  (getLine "keyedit.prompt", (CString.lit "trust").line) ::
    (getLine "edit_ownertrust.value", (CString.lit (trustDigit ownertrust)).line) :: quitAndSave

/-- The same, when gpg asks whether ultimate trust is meant. -/
def ultimateScript (ownertrust : OwnerTrust) : Script :=
  (getLine "keyedit.prompt", (CString.lit "trust").line) ::
    (getLine "edit_ownertrust.value", (CString.lit (trustDigit ownertrust)).line) ::
    (getBool "edit_ownertrust.set_ultimate.okay", (CString.lit "Y").line) :: quitAndSave

/-- The dialogue that adds a user ID. -/
def userIDScript (m : GpgAddUserIDEditInteractor.UserIDParts) : Script :=
  (getLine "keyedit.prompt", (CString.lit "adduid").line) ::
    (getLine "keygen.name", (CString.cStr m.name).line) ::
    (getLine "keygen.email", (CString.cStr m.email).line) ::
    (getLine "keygen.comment", (CString.cStr m.comment).line) :: quitAndSave

/-- The expiry scripts still open in a state. -/
def expiryOpens (strtime : StdString) : ℕ → List Script
  | 0 => [expiryScript strtime]
  | 1 => [(expiryScript strtime).drop 1]
  | 2 => [quitAndSave]
  | 3 => [quitAndSave.drop 1]
  | 4 => [[]]
  | _ => []

/-- The owner trust scripts still open in a state. -/
def ownerTrustOpens (ownertrust : OwnerTrust) : ℕ → List Script
  | 0 => [ownerTrustScript ownertrust, ultimateScript ownertrust]
  | 1 => [(ownerTrustScript ownertrust).drop 1, (ultimateScript ownertrust).drop 1]
  | 2 => [quitAndSave, (ultimateScript ownertrust).drop 2]
  | 3 => [quitAndSave]
  | 4 => [quitAndSave.drop 1]
  | 5 => [[]]
  | _ => []

/-- The user ID scripts still open in a state. -/
def userIDOpens (m : GpgAddUserIDEditInteractor.UserIDParts) : ℕ → List Script
  | 0 => [userIDScript m]
  | 1 => [(userIDScript m).drop 1]
  | 2 => [(userIDScript m).drop 2]
  | 3 => [(userIDScript m).drop 3]
  | 4 => [quitAndSave]
  | 5 => [quitAndSave.drop 1]
  | 6 => [[]]
  | _ => []

/-- The table of the sources has the digits. -/
theorem truststrings_eq (ownertrust : OwnerTrust) :
    GpgSetOwnerTrustEditInteractor.truststrings ownertrust = .lit (trustDigit ownertrust) := by
  cases ownertrust <;> rfl

variable [LibGpgError]

/-! ## Replies that can be counted -/

theorem responsive_setExpiryTime {strtime : StdString} (h : (CString.cStr strtime).Short) :
    Responsive (gpgSetExpiryTimeEditInteractor strtime) where
  wellFormed := reportsWellFormed_setExpiryTime strtime
  total := fun s le d err => ⟨_, rfl⟩
  short := by
    intro s le d err r e d' hact
    obtain ⟨hr, -⟩ := Prod.mk.inj (Except.ok.inj hact)
    revert hr
    fun_cases GpgSetExpiryTimeEditInteractor.action strtime s err <;> intro hr <;>
      first
      | exact Option.some.inj hr ▸ h
      | (obtain rfl := Option.some.inj hr; decide)
      | cases hr

theorem responsive_setOwnerTrust (ownertrust : OwnerTrust) :
    Responsive (gpgSetOwnerTrustEditInteractor ownertrust) where
  wellFormed := reportsWellFormed_setOwnerTrust ownertrust
  total := fun s le d err => ⟨_, rfl⟩
  short := by
    intro s le d err r e d' hact
    obtain ⟨hr, -⟩ := Prod.mk.inj (Except.ok.inj hact)
    revert hr
    fun_cases GpgSetOwnerTrustEditInteractor.action ownertrust s err <;> intro hr <;>
      first
      | (obtain rfl := Option.some.inj hr; decide)
      | (obtain rfl := Option.some.inj hr; cases ownertrust <;> decide)
      | cases hr

theorem responsive_addUserID {m : GpgAddUserIDEditInteractor.UserIDParts}
    (hname : (CString.cStr m.name).Short) (hemail : (CString.cStr m.email).Short)
    (hcomment : (CString.cStr m.comment).Short) : Responsive (gpgAddUserIDEditInteractor m) where
  wellFormed := reportsWellFormed_addUserID m
  total := fun s le d err => ⟨_, rfl⟩
  short := by
    intro s le d err r e d' hact
    obtain ⟨hr, -⟩ := Prod.mk.inj (Except.ok.inj hact)
    revert hr
    fun_cases GpgAddUserIDEditInteractor.action m s err <;> intro hr <;>
      first
      | exact Option.some.inj hr ▸ hname
      | exact Option.some.inj hr ▸ hemail
      | exact Option.some.inj hr ▸ hcomment
      | (obtain rfl := Option.some.inj hr; decide)
      | cases hr

/-! ## The interactors follow their scripts -/

theorem openScripts_setExpiryTime {strtime : StdString} (h : (CString.cStr strtime).Short) :
    OpenScripts (gpgSetExpiryTimeEditInteractor strtime) (expiryOpens strtime) where
  responsive := responsive_setExpiryTime h
  ignores := by
    intro s st args hst
    simp [gpgSetExpiryTimeEditInteractor, GpgSetExpiryTimeEditInteractor.nextState, hst]
  expects := by
    intro s p a r hd
    rcases s with _ | _ | _ | _ | _ | s <;>
      simp only [expiryOpens, expiryScript, quitAndSave, List.drop, List.mem_singleton,
        List.cons.injEq, Prod.mk.injEq, List.not_mem_nil, reduceCtorEq] at hd <;>
      obtain ⟨⟨rfl, rfl⟩, rfl⟩ := hd
    · exact ⟨rfl, Error.toBool_none, 1, _, by decide, rfl, rfl, rfl, rfl⟩
    · exact ⟨rfl, Error.toBool_none, 2, _, by decide, rfl, rfl, rfl, rfl⟩
    · exact ⟨rfl, Error.toBool_none, 3, _, by decide, rfl, rfl, rfl, rfl⟩
    · exact ⟨rfl, Error.toBool_none, 4, _, by decide, rfl, rfl, rfl, rfl⟩
  rejects := by
    rintro s ⟨st, args⟩ hne hresp hp
    have hst : needsNoResponse st = false := by simpa [needsResponse] using hresp
    simp only [gpgSetExpiryTimeEditInteractor, GpgSetExpiryTimeEditInteractor.nextState, hst,
      Bool.false_eq_true, if_false]
    split_ifs with h0 h h1 h h2 h h' h3 h h4
    all_goals try exact Error.toBool_fromCode (by decide) (by decide)
    -- the moves that are left are those of the script, or those out of the error state
    all_goals first
      | (subst h4; exact absurd rfl hne)
      | (obtain ⟨rfl, rfl⟩ := h
         first | subst h0 | subst h1 | subst h2 | subst h3
         exact absurd hp (advance_ne_nil List.mem_cons_self))

theorem openScripts_setOwnerTrust (ownertrust : OwnerTrust) :
    OpenScripts (gpgSetOwnerTrustEditInteractor ownertrust) (ownerTrustOpens ownertrust) where
  responsive := responsive_setOwnerTrust ownertrust
  ignores := by
    intro s st args hst
    simp [gpgSetOwnerTrustEditInteractor, GpgSetOwnerTrustEditInteractor.nextState, hst]
  expects := by
    intro s p a r hd
    rcases s with _ | _ | _ | _ | _ | _ | s <;>
      simp only [ownerTrustOpens, ownerTrustScript, ultimateScript, quitAndSave, List.drop,
        List.mem_cons, List.cons.injEq, Prod.mk.injEq, List.not_mem_nil, reduceCtorEq,
        or_false] at hd
    · rcases hd with ⟨⟨rfl, rfl⟩, rfl⟩ | ⟨⟨rfl, rfl⟩, rfl⟩ <;>
        exact ⟨rfl, Error.toBool_none, 1, _, by decide, rfl, rfl, rfl, rfl⟩
    · have hact : (gpgSetOwnerTrustEditInteractor ownertrust).action 2 .none () .none =
          .ok (some (.lit (trustDigit ownertrust)), .none, ()) := by
        rw [← truststrings_eq]
        rfl
      rcases hd with ⟨⟨rfl, rfl⟩, rfl⟩ | ⟨⟨rfl, rfl⟩, rfl⟩ <;>
        exact ⟨rfl, Error.toBool_none, 2, _, by decide, rfl, rfl, rfl, hact⟩
    · -- gpg may or may not ask whether ultimate trust is meant
      rcases hd with ⟨⟨rfl, rfl⟩, rfl⟩ | ⟨⟨rfl, rfl⟩, rfl⟩
      · exact ⟨rfl, Error.toBool_none, 4, _, by decide, rfl, rfl, rfl, rfl⟩
      · exact ⟨rfl, Error.toBool_none, 3, _, by decide, rfl, rfl, rfl, rfl⟩
    · obtain ⟨⟨rfl, rfl⟩, rfl⟩ := hd
      exact ⟨rfl, Error.toBool_none, 4, _, by decide, rfl, rfl, rfl, rfl⟩
    · obtain ⟨⟨rfl, rfl⟩, rfl⟩ := hd
      exact ⟨rfl, Error.toBool_none, 5, _, by decide, rfl, rfl, rfl, rfl⟩
  rejects := by
    rintro s ⟨st, args⟩ hne hresp hp
    have hst : needsNoResponse st = false := by simpa [needsResponse] using hresp
    simp only [gpgSetOwnerTrustEditInteractor, GpgSetOwnerTrustEditInteractor.nextState, hst,
      Bool.false_eq_true, if_false]
    split_ifs with h0 h h1 h h2 h h h3 h h4 h h5
    all_goals try exact Error.toBool_fromCode (by decide) (by decide)
    all_goals first
      | (subst h5; exact absurd rfl hne)
      | (obtain ⟨rfl, rfl⟩ := h
         first | subst h0 | subst h1 | subst h2 | subst h3 | subst h4
         first
           | exact absurd hp (advance_ne_nil List.mem_cons_self)
           | exact absurd hp (advance_ne_nil (List.mem_cons_of_mem _ List.mem_cons_self)))

theorem openScripts_addUserID {m : GpgAddUserIDEditInteractor.UserIDParts}
    (hname : (CString.cStr m.name).Short) (hemail : (CString.cStr m.email).Short)
    (hcomment : (CString.cStr m.comment).Short) :
    OpenScripts (gpgAddUserIDEditInteractor m) (userIDOpens m) where
  responsive := responsive_addUserID hname hemail hcomment
  ignores := by
    intro s st args hst
    simp [gpgAddUserIDEditInteractor, GpgAddUserIDEditInteractor.nextState, hst]
  expects := by
    intro s p a r hd
    rcases s with _ | _ | _ | _ | _ | _ | _ | s <;>
      simp only [userIDOpens, userIDScript, quitAndSave, List.drop, List.mem_singleton,
        List.cons.injEq, Prod.mk.injEq, List.not_mem_nil, reduceCtorEq] at hd <;>
      obtain ⟨⟨rfl, rfl⟩, rfl⟩ := hd
    · exact ⟨rfl, Error.toBool_none, 1, _, by decide, rfl, rfl, rfl, rfl⟩
    · exact ⟨rfl, Error.toBool_none, 2, _, by decide, rfl, rfl, rfl, rfl⟩
    · exact ⟨rfl, Error.toBool_none, 3, _, by decide, rfl, rfl, rfl, rfl⟩
    · exact ⟨rfl, Error.toBool_none, 4, _, by decide, rfl, rfl, rfl, rfl⟩
    · exact ⟨rfl, Error.toBool_none, 5, _, by decide, rfl, rfl, rfl, rfl⟩
    · exact ⟨rfl, Error.toBool_none, 6, _, by decide, rfl, rfl, rfl, rfl⟩
  rejects := by
    rintro s ⟨st, args⟩ hne hresp hp
    have hst : needsNoResponse st = false := by simpa [needsResponse] using hresp
    simp only [gpgAddUserIDEditInteractor, GpgAddUserIDEditInteractor.nextState, hst,
      Bool.false_eq_true, if_false]
    split_ifs with h0 h h1 h h2 h h' h3 h h' h4 h h' h5 h h6
    all_goals try exact Error.toBool_fromCode (by decide) (by decide)
    all_goals first
      | (subst h6; exact absurd rfl hne)
      | (obtain ⟨rfl, rfl⟩ := h
         first | subst h0 | subst h1 | subst h2 | subst h3 | subst h4 | subst h5
         exact absurd hp (advance_ne_nil List.mem_cons_self))

/-! ## When the dialogues are spoken -/

/-- The interactor for expiry dates speaks its dialogue, given a short date. -/
theorem speaksDialogue_expiry {strtime : StdString} (h : (CString.cStr strtime).Short) :
    SpeaksDialogue (gpgSetExpiryTimeEditInteractor strtime) (start ()) [expiryScript strtime] :=
  (openScripts_setExpiryTime h).followsScripts.speaksDialogue ⟨rfl, rfl, List.cons_ne_nil _ _⟩

/-- The interactor for user IDs speaks its dialogue, given short parts. -/
theorem speaksDialogue_userID {m : GpgAddUserIDEditInteractor.UserIDParts}
    (hname : (CString.cStr m.name).Short) (hemail : (CString.cStr m.email).Short)
    (hcomment : (CString.cStr m.comment).Short) :
    SpeaksDialogue (gpgAddUserIDEditInteractor m) (start ()) [userIDScript m] :=
  (openScripts_addUserID hname hemail hcomment).followsScripts.speaksDialogue
    ⟨rfl, rfl, List.cons_ne_nil _ _⟩

/-- The statuses of the dialogues are prompts. -/
theorem prompts_expiryScript (strtime : StdString) :
    ∀ p ∈ expiryScript strtime, needsResponse p.1 = true ∧ isError p.1 = false := by
  simp [expiryScript, quitAndSave, getLine, getBool, needsResponse, needsNoResponse, isError,
    statusToError]

theorem prompts_userIDScript (m : GpgAddUserIDEditInteractor.UserIDParts) :
    ∀ p ∈ userIDScript m, needsResponse p.1 = true ∧ isError p.1 = false := by
  simp [userIDScript, quitAndSave, getLine, getBool, needsResponse, needsNoResponse, isError,
    statusToError]

/-- A date whose dialogue is spoken is short. -/
theorem short_strtime {strtime : StdString}
    (h : SpeaksDialogue (gpgSetExpiryTimeEditInteractor strtime) (start ())
      [expiryScript strtime]) : (CString.cStr strtime).Short :=
  h.short_of_script List.mem_cons_self (prompts_expiryScript strtime)
    (m := getLine "keygen.valid") (by simp [expiryScript])

/-- **When three interactors speak the dialogues of their scripts**, from the start state: they
succeed on the beginnings of their scripts and on nothing else, and send the replies of the
longest such beginning, exactly if the configured strings have less than `2 ^ 31` bytes before
the first zero byte.  The one for the owner trust has no such string. -/
theorem speaksDialogue_iff :
    (∀ strtime, SpeaksDialogue (gpgSetExpiryTimeEditInteractor strtime) (start ())
      [expiryScript strtime] ↔ (CString.cStr strtime).Short) ∧
    (∀ ownertrust, SpeaksDialogue (gpgSetOwnerTrustEditInteractor ownertrust) (start ())
      [ownerTrustScript ownertrust, ultimateScript ownertrust]) ∧
    ∀ m, SpeaksDialogue (gpgAddUserIDEditInteractor m) (start ()) [userIDScript m] ↔
      (CString.cStr m.name).Short ∧ (CString.cStr m.email).Short ∧
        (CString.cStr m.comment).Short := by
  refine ⟨?_, ?_, ?_⟩
  · exact fun strtime => ⟨short_strtime, speaksDialogue_expiry⟩
  · intro ownertrust
    exact (openScripts_setOwnerTrust ownertrust).followsScripts.speaksDialogue
      ⟨rfl, rfl, List.cons_ne_nil _ _⟩
  · intro m
    refine ⟨fun h => ⟨?_, ?_, ?_⟩, fun ⟨hname, hemail, hcomment⟩ =>
      speaksDialogue_userID hname hemail hcomment⟩
    · exact h.short_of_script List.mem_cons_self (prompts_userIDScript m)
        (m := getLine "keygen.name") (by simp [userIDScript])
    · exact h.short_of_script List.mem_cons_self (prompts_userIDScript m)
        (m := getLine "keygen.email") (by simp [userIDScript])
    · exact h.short_of_script List.mem_cons_self (prompts_userIDScript m)
        (m := getLine "keygen.comment") (by simp [userIDScript])

omit [LibGpgError] in
/-- A date of `2 ^ 31` digits is taken whole, and the edit fails. -/
theorem not_speaksDialogue_long :
    letI := LibGpgError.documented
    ¬ ∀ strtime, SpeaksDialogue (gpgSetExpiryTimeEditInteractor strtime) (start ())
      [expiryScript strtime] := by
  let := LibGpgError.documented
  intro h
  have hbytes : (CString.cStr (List.replicate (2 ^ 31) 48)).bytes = List.replicate (2 ^ 31) 48 :=
    CString.bytes_cStr_iff.mpr fun h0 => absurd (List.eq_of_mem_replicate h0) (by decide)
  have hshort := short_strtime (h (List.replicate (2 ^ 31) 48))
  rw [CString.Short, hbytes, List.length_replicate] at hshort
  exact lt_irrefl _ hshort

end Gpgmepp.EditInteractor
