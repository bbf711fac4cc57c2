import Gpgmepp.VerificationResult.Copies

/-!
# The policy URL of a list of notations

Three functions look for the policy URL in gpgme's list of notations.  Two of them return the
value of the first notation without a name, even if it is null.  The copy that a
`VerificationResult` makes goes on, and keeps the last value that is not null.

## Main definitions

* `UserID.Signature.policyURL`, `Context.signaturePolicyURL` — the other two functions.
* `PolicyURLsAgree`, `policyURLsAgree_iff` — when all three return the same.
-/

namespace Gpgmepp

open VerificationResult

/-- The loop of the two functions. -/
def firstPolicyURL : List SigNotation → Option CString
  | [] => none
  | n :: l => if n.name.isNone then n.value else firstPolicyURL l

/-- `UserID::Signature::policyURL`, with the notations of the signature, which may be null. -/
def UserID.Signature.policyURL (sig : Option (List SigNotation)) : Option CString :=
  match sig with
  | none => none
  | some notations => firstPolicyURL notations

/-- `Context::signaturePolicyURL`, with what `gpgme_sig_notation_get` returns. -/
def Context.signaturePolicyURL (notations : List SigNotation) : Option CString :=
  firstPolicyURL notations

/-- The three functions return the same for a list, whatever else gpgme reports. -/
def PolicyURLsAgree (l : List SigNotation) : Prop :=
  UserID.Signature.policyURL (some l) = Context.signaturePolicyURL l ∧
    ∀ (error : Error) (r : GpgmeVerifyResult) (i : UInt32) (s : GpgmeSignature),
      r.signatures[i.toNat]? = some s → s.notations = l →
        ((ofGpgme error (some r)).signature i).policyURL = .ok (Context.signaturePolicyURL l)

/-- The first of the values, which may be null. -/
theorem firstPolicyURL_eq (l : List SigNotation) :
    firstPolicyURL l = (policyURLs l).head?.join := by
  induction l with
  | nil => rfl
  | cons n l ih =>
      cases hname : n.name with
      | none => simp [firstPolicyURL, policyURLs, hname]
      | some name => simpa [firstPolicyURL, policyURLs, hname] using ih

/-- The first value and the last that is not null are the same exactly if there is none that
is not null, or the first is not null and is the last. -/
theorem head?_join_eq_getLast?_iff {α : Type} (vs : List (Option α)) :
    vs.head?.join = (vs.filterMap id).getLast? ↔
      (∀ v ∈ vs, v = none) ∨
        ∃ a, vs.head? = some (some a) ∧ (vs.filterMap id).getLast? = some a := by
  have hnone : (vs.filterMap id).getLast? = none ↔ ∀ v ∈ vs, v = none := by simp
  constructor
  · intro h
    cases hlast : (vs.filterMap id).getLast? with
    | none => exact .inl (hnone.mp hlast)
    | some a =>
        rw [hlast, Option.join_eq_some_iff] at h
        exact .inr ⟨a, h, rfl⟩
  · rintro (h | ⟨a, hhead, hlast⟩)
    · rw [hnone.mpr h, Option.join_eq_none_iff]
      cases hhead : vs.head? with
      | none => exact .inl rfl
      | some v => exact .inr (congrArg some (h v (List.mem_of_head? hhead)))
    · rw [hlast, hhead, Option.join_some]

/-- **The three functions agree exactly if** no nameless notation of the list has a value, or
the first one has a value and it is also the last. -/
theorem policyURLsAgree_iff (l : List SigNotation) :
    PolicyURLsAgree l ↔ (∀ v ∈ policyURLs l, v = none) ∨
      ∃ url, (policyURLs l).head? = some (some url) ∧
        ((policyURLs l).filterMap id).getLast? = some url := by
  rw [← head?_join_eq_getLast?_iff, ← firstPolicyURL_eq, ← lastPolicyURL]
  constructor
  · rintro ⟨-, h⟩
    let s : GpgmeSignature := ⟨0, none, 0, l, 0, 0, false, 0, false, .unknown, 0, 0, 0, none⟩
    have hs : (⟨[s], none⟩ : GpgmeVerifyResult).signatures[(0 : UInt32).toNat]? = some s := rfl
    exact (Except.ok.inj ((policyURL_signature hs).symm.trans (h .none _ 0 s hs rfl))).symm
  · intro h
    refine ⟨rfl, ?_⟩
    rintro error r i s hs rfl
    rw [policyURL_signature hs]
    exact congrArg Except.ok h.symm

/-- Two policy URLs: the copy keeps the second, and the others return the first. -/
theorem not_policyURLsAgree_two : ¬ ∀ l, PolicyURLsAgree l := by
  intro h
  let l : List SigNotation := [⟨none, some (.lit "a"), 0⟩, ⟨none, some (.lit "b"), 0⟩]
  let s : GpgmeSignature := ⟨0, none, 0, l, 0, 0, false, 0, false, .unknown, 0, 0, 0, none⟩
  have hs : (⟨[s], none⟩ : GpgmeVerifyResult).signatures[(0 : UInt32).toNat]? = some s := rfl
  have heq : lastPolicyURL l = Context.signaturePolicyURL l :=
    Except.ok.inj ((policyURL_signature hs).symm.trans ((h l).2 .none _ 0 s hs rfl))
  exact absurd heq (by decide)

end Gpgmepp
