import Gpgmepp.CString
import Gpgmepp.Lib.Flags
import Mathlib.Logic.Function.Basic

/-!
# Keys

A `Key` is a shared pointer to a record of gpgme, and its copies share the record.  `mergeWith`
takes over the flags of another key that describes the same one, in place: all copies see them.
The records here are those of a gpgme that has the fields `is_qualified` and `is_cardkey`.

Two keys are the same if their primary fingerprints are, whatever the case of the letters; a key
ID takes the place of a fingerprint that is missing.  The subkeys are compared by `strcmp`, which
must not be given a null pointer.  If a key is merged with itself, the loop over the subkeys reads
the flags that it writes, but they are those of the subkeys as they were: `mergeSubkeys_eq`.

## Main definitions

* `GpgmeSubkey`, `GpgmeKey`, `Records`, `Key` — the records and the pointers to them.
* `Key.primaryFingerprint`, `Key.mergeWith` — the functions of the sources.
* `Key.markFirst`, `Key.mergeSubkeys_eq` — what the loop does to one subkey, and to all.
-/

namespace Gpgmepp

/-- An access through a null pointer. -/
inductive NullDereference | nullDereference
  deriving DecidableEq

/-- `tolower` of a character, in the C locale. -/
def toLower (c : UInt8) : UInt8 := if 65 ≤ c ∧ c ≤ 90 then c + 32 else c

/-- `strcasecmp(a, b) == 0`. -/
def CString.caseEq (a b : CString) : Prop := a.bytes.map toLower = b.bytes.map toLower

instance (a b : CString) : Decidable (a.caseEq b) := inferInstanceAs (Decidable (_ = _))

/-- `gpgme_sub_key_t`; `rest` is what the functions here neither read nor write. -/
structure GpgmeSubkey (σ : Type*) where
  fpr : Option CString
  keyid : Option CString
  isCardkey : Bool
  rest : σ

/-- `gpgme_key_t`, of the same kind. -/
structure GpgmeKey (σ ρ : Type*) where
  revoked : Bool
  expired : Bool
  disabled : Bool
  invalid : Bool
  canEncrypt : Bool
  canSign : Bool
  canCertify : Bool
  secret : Bool
  canAuthenticate : Bool
  isQualified : Bool
  keylistMode : UInt32
  subkeys : List (GpgmeSubkey σ)
  rest : ρ

/-- The records of gpgme, by their addresses. -/
abbrev Records (σ ρ : Type*) := ℕ → GpgmeKey σ ρ

/-- A `Key`: a pointer to a record, or a null pointer. -/
abbrev Key := Option ℕ

namespace Key

variable {σ ρ : Type*}

/-- `Key::keyID`. -/
def keyID (w : Records σ ρ) (key : Key) : Option CString :=
  key.bind fun r => (w r).subkeys.head?.bind GpgmeSubkey.keyid

/-- `Key::primaryFingerprint`. -/
def primaryFingerprint (w : Records σ ρ) (key : Key) : Option CString :=
  match key.bind fun r => (w r).subkeys.head?.bind GpgmeSubkey.fpr with
  | some fpr => some fpr
  | none => keyID w key

/-- The guard of `mergeWith`: both keys have a primary fingerprint, and it is the same. -/
def sameKey (w : Records σ ρ) (this other : Key) : Bool :=
  match primaryFingerprint w this, primaryFingerprint w other with
  | some f, some g => f.caseEq g
  | _, _ => false

/-- The flags of `me` when those of `him` are merged in. -/
def mergeFlags (me him : GpgmeKey σ ρ) : GpgmeKey σ ρ :=
  { me with
    revoked := me.revoked || him.revoked
    expired := me.expired || him.expired
    disabled := me.disabled || him.disabled
    invalid := me.invalid || him.invalid
    canEncrypt := me.canEncrypt || him.canEncrypt
    canSign := me.canSign || him.canSign
    canCertify := me.canCertify || him.canCertify
    secret := me.secret || him.secret
    canAuthenticate := me.canAuthenticate || him.canAuthenticate
    isQualified := me.isQualified || him.isQualified
    keylistMode := me.keylistMode ||| him.keylistMode }

/-- The inner loop: the first subkey of `his` with the fingerprint `fpr`, found by `strcmp`. -/
def findSubkey (fpr : Option CString) :
    List (GpgmeSubkey σ) → Except NullDereference (Option (GpgmeSubkey σ))
  | [] => .ok none
  | hissk :: his =>
      match fpr, hissk.fpr with
      | some f, some g => if f = g then .ok (some hissk) else findSubkey fpr his
      | _, _ => .error .nullDereference

/-- `mysk->is_cardkey |= hissk->is_cardkey`, if a subkey was found. -/
def orCardkey (mysk : GpgmeSubkey σ) (found : Option (GpgmeSubkey σ)) : GpgmeSubkey σ :=
  { mysk with isCardkey := mysk.isCardkey || found.elim false GpgmeSubkey.isCardkey }

/-- The outer loop, with the subkeys `done` behind it.  If both keys have the same record
(`same`), the inner loop runs over the subkeys as they are by now. -/
def mergeSubkeys (same : Bool) (his : List (GpgmeSubkey σ)) :
    (done mine : List (GpgmeSubkey σ)) → Except NullDereference (List (GpgmeSubkey σ))
  | done, [] => .ok done
  | done, mysk :: mine =>
      match findSubkey mysk.fpr (if same then done ++ mysk :: mine else his) with
      | .ok found => mergeSubkeys same his (done ++ [orCardkey mysk found]) mine
      | .error e => .error e

/-- `Key::mergeWith`. -/
def mergeWith (w : Records σ ρ) (this other : Key) : Except NullDereference (Records σ ρ) :=
  if sameKey w this other then
    match this, other with
    | some me, some him =>
        let w := Function.update w me (mergeFlags (w me) (w him))
        match mergeSubkeys (me == him) (w him).subkeys [] (w me).subkeys with
        | .ok subkeys => .ok (Function.update w me { w me with subkeys })
        | .error e => .error e
    | _, _ => .ok w
  else .ok w

/-! ## The loop over the subkeys -/

/-- One subkey, when the subkeys `his` are merged in. -/
def markFirst (his : List (GpgmeSubkey σ)) (mysk : GpgmeSubkey σ) :
    Except NullDereference (GpgmeSubkey σ) :=
  (findSubkey mysk.fpr his).map (orCardkey mysk)

/-- All subkeys, one after the other. -/
def markAll (his : List (GpgmeSubkey σ)) :
    List (GpgmeSubkey σ) → Except NullDereference (List (GpgmeSubkey σ))
  | [] => .ok []
  | mysk :: mine =>
      match markFirst his mysk with
      | .ok mysk' => (markAll his mine).map (mysk' :: ·)
      | .error e => .error e

theorem findSubkey_append (fpr : Option CString) (l t : List (GpgmeSubkey σ)) :
    findSubkey fpr (l ++ t) =
      match findSubkey fpr l with
      | .ok none => findSubkey fpr t
      | r => r := by
  induction l with
  | nil => rfl
  | cons s l ih =>
      cases fpr with
      | none => rfl
      | some f =>
          cases hs : s.fpr with
          | none => simp [findSubkey, hs]
          | some g =>
              by_cases hfg : f = g
              · simp [findSubkey, hs, hfg]
              · simpa [findSubkey, hs, hfg] using ih

/-- The subkey itself is no news. -/
@[simp] theorem orCardkey_self (s : GpgmeSubkey σ) : orCardkey s (some s) = s := by
  simp [orCardkey]

@[simp] theorem fpr_orCardkey (s : GpgmeSubkey σ) (found : Option (GpgmeSubkey σ)) :
    (orCardkey s found).fpr = s.fpr := rfl

/-- The subkeys `done` are as good as `done₀`, whatever stands behind them. -/
def FindSame (done done₀ : List (GpgmeSubkey σ)) : Prop :=
  ∀ fpr t mysk, (findSubkey fpr (done ++ t)).map (orCardkey mysk) =
    (findSubkey fpr (done₀ ++ t)).map (orCardkey mysk)

/-- They still are with the next one, marked by what was found for it. -/
theorem FindSame.concat {done done₀ mine : List (GpgmeSubkey σ)} {mysk : GpgmeSubkey σ}
    {found : Option (GpgmeSubkey σ)} (h : FindSame done done₀)
    (hfound : findSubkey mysk.fpr (done ++ mysk :: mine) = .ok found) :
    FindSame (done ++ [orCardkey mysk found]) (done₀ ++ [mysk]) := by
  intro fpr t x
  rw [List.append_assoc, List.append_assoc, h, findSubkey_append, findSubkey_append fpr done₀]
  cases hdone : findSubkey fpr done₀ with
  | error e => rfl
  | ok first =>
      cases first with
      | some s => rfl
      | none =>
          -- nothing before: then the subkey finds nothing but itself, and stays as it is
          by_cases hfpr : fpr = mysk.fpr
          · subst hfpr
            have hfind := h mysk.fpr (mysk :: mine) mysk
            rw [hfound, findSubkey_append, hdone] at hfind
            cases hnull : mysk.fpr with
            | none => simp [findSubkey]
            | some f =>
                have hself : orCardkey mysk found = mysk := by
                  simpa [findSubkey, hnull, Except.map] using hfind
                simp [hself]
          · cases hnull : mysk.fpr with
            | none => cases fpr <;> simp [findSubkey, hnull]
            | some f =>
                cases fpr with
                | none => rfl
                | some g =>
                    have hne : g ≠ f := fun heq => hfpr (by rw [heq, hnull])
                    simp [findSubkey, hnull, hne]

/-- The loop, when both keys have the same record. -/
theorem mergeSubkeys_same (his : List (GpgmeSubkey σ)) :
    ∀ {mine done done₀ : List (GpgmeSubkey σ)}, FindSame done done₀ →
      mergeSubkeys true his done mine = (markAll (done₀ ++ mine) mine).map (done ++ ·) := by
  intro mine
  induction mine with
  | nil =>
      intro done done₀ _
      simp [mergeSubkeys, markAll, Except.map]
  | cons mysk mine ih =>
      intro done done₀ h
      have hfind := h mysk.fpr (mysk :: mine) mysk
      rw [mergeSubkeys, markAll, markFirst, ← hfind]
      simp only [if_true]
      cases hfound : findSubkey mysk.fpr (done ++ mysk :: mine) with
      | error e => rfl
      | ok found =>
          have hrest := ih (h.concat hfound)
          simp only [Except.map]
          rw [hrest, List.append_assoc, List.singleton_append]
          cases markAll (done₀ ++ mysk :: mine) mine <;> simp [Except.map]

/-- The loop, when the keys have records of their own. -/
theorem mergeSubkeys_other (his : List (GpgmeSubkey σ)) :
    ∀ {mine done : List (GpgmeSubkey σ)},
      mergeSubkeys false his done mine = (markAll his mine).map (done ++ ·) := by
  intro mine
  induction mine with
  | nil =>
      intro done
      simp [mergeSubkeys, markAll, Except.map]
  | cons mysk mine ih =>
      intro done
      rw [mergeSubkeys, markAll, markFirst]
      simp only [Bool.false_eq_true, if_false]
      cases hfound : findSubkey mysk.fpr his with
      | error e => rfl
      | ok found =>
          simp only [Except.map]
          rw [ih]
          cases markAll his mine <;> simp [Except.map]

/-- **The loop marks each subkey by the first of the other key's that has its fingerprint**, also
if both keys have the same record. -/
theorem mergeSubkeys_eq (w : Records σ ρ) (me him : ℕ) :
    mergeSubkeys (me == him) (w him).subkeys [] (w me).subkeys =
      markAll (w him).subkeys (w me).subkeys := by
  have hnil : ∀ r : Except NullDereference (List (GpgmeSubkey σ)), r.map ([] ++ ·) = r := by
    rintro (e | l)
    · rfl
    · rfl
  cases hsame : me == him with
  | true =>
      obtain rfl : me = him := by simpa using hsame
      have hsame : FindSame ([] : List (GpgmeSubkey σ)) [] := fun _ _ _ => rfl
      rw [mergeSubkeys_same _ hsame, hnil, List.nil_append]
  | false => rw [mergeSubkeys_other, hnil]

/-- **One merge** of keys that are the same. -/
theorem mergeWith_eq {w : Records σ ρ} {me him : ℕ} (h : sameKey w (some me) (some him) = true) :
    mergeWith w (some me) (some him) =
      (markAll (w him).subkeys (w me).subkeys).map fun subkeys =>
        Function.update w me { mergeFlags (w me) (w him) with subkeys } := by
  have hsubkeys : ∀ x, (Function.update w me (mergeFlags (w me) (w him)) x).subkeys =
      (w x).subkeys := by
    intro x
    by_cases hx : x = me
    · subst hx
      rw [Function.update_self]
      rfl
    · rw [Function.update_of_ne hx]
  have hloop := mergeSubkeys_eq (Function.update w me (mergeFlags (w me) (w him))) me him
  rw [hsubkeys, hsubkeys] at hloop
  simp only [mergeWith, h, if_true, hsubkeys, hloop]
  cases markAll (w him).subkeys (w me).subkeys with
  | error e => rfl
  | ok subkeys => simp [Except.map]

/-- Keys that are not the same are not merged. -/
theorem mergeWith_of_not {w : Records σ ρ} {this other : Key} (h : sameKey w this other = false) :
    mergeWith w this other = .ok w := by
  simp [mergeWith, h]

end Key

end Gpgmepp
