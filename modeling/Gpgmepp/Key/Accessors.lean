import Gpgmepp.Key
import Gpgmepp.Lib.Walk
import Gpgmepp.VerificationResult

/-!
# The lists of a key

A key has lists of user IDs and of subkeys, a user ID one of signatures, and a signature one of
notations.  For each list there is a function that counts, one that returns a vector, and one that
returns the object for an index.  A `UserID`, a `Subkey` and a `UserID::Signature` hold a pointer
into such a list, which their constructors look for in the list.

A notation without a name is a policy URL, and all functions for notations skip it.

## Main definitions

* `GpgmeMemory` — the lists of gpgme, by the addresses of their nodes.
* `Subkey`, `UserID`, `UserID.Signature` — the objects.
* `numOf`, `vectorOf`, `findOf`, `verifyOf` — the loops that the functions of the sources share.
-/

namespace Gpgmepp

open Walk

/-- The lists of the records of gpgme, each with the addresses of its nodes in the order of their
`next` links; of notations, with what they are. -/
structure GpgmeMemory where
  /-- `gpgme_key_t::uids`. -/
  uids : ℕ → List ℕ
  /-- `gpgme_key_t::subkeys`. -/
  subkeys : ℕ → List ℕ
  /-- `gpgme_user_id_t::signatures`. -/
  signatures : ℕ → List ℕ
  /-- `gpgme_key_sig_t::notations`. -/
  notations : ℕ → List SigNotation

/-! ## The loops -/

section Loops
variable {β : Type*} (list : ℕ → List ℕ) (owner : Option ℕ)

/-- The functions that count the nodes of a list. -/
def numOf : UInt32 :=
  match owner with
  | none => 0
  | some r => count (fun _ => true) (list r) 0

/-- The functions that return a vector, with an object for each node of a list. -/
def vectorOf (object : ℕ → β) : List β :=
  match owner with
  | none => []
  | some r => collect (fun _ => true) object (list r)

/-- `find_uid` and so on. -/
def findOf (idx : UInt32) : Option ℕ :=
  match owner with
  | none => none
  | some r => find (list r) idx

/-- `verify_uid` and so on. -/
def verifyOf (node : Option ℕ) : Option ℕ :=
  match owner with
  | none => none
  | some r => verify (list r) node

end Loops

/-! ## The objects -/

/-- `class Subkey`. -/
structure Subkey where
  key : Key
  subkey : Option ℕ

/-- `class UserID`. -/
structure UserID where
  key : Key
  uid : Option ℕ

/-- `class UserID::Signature`. -/
structure UserID.Signature where
  key : Key
  uid : Option ℕ
  sig : Option ℕ

variable (m : GpgmeMemory)

namespace Subkey

/-- `Subkey(key, idx)`. -/
def ofIndex (k : Key) (idx : UInt32) : Subkey := ⟨k, findOf m.subkeys k idx⟩

/-- `Subkey(key, sk)`. -/
def ofPointer (k : Key) (sk : Option ℕ) : Subkey := ⟨k, verifyOf m.subkeys k sk⟩

/-- `Subkey::isNull`. -/
def isNull (s : Subkey) : Bool := s.key.isNone || s.subkey.isNone

end Subkey

namespace UserID

/-- `UserID(key, idx)`. -/
def ofIndex (k : Key) (idx : UInt32) : UserID := ⟨k, findOf m.uids k idx⟩

/-- `UserID(key, u)`. -/
def ofPointer (k : Key) (u : Option ℕ) : UserID := ⟨k, verifyOf m.uids k u⟩

/-- `UserID::isNull`. -/
def isNull (u : UserID) : Bool := u.key.isNone || u.uid.isNone

namespace Signature

/-- `UserID::Signature(key, u, idx)`. -/
def ofIndex (k : Key) (u : Option ℕ) (idx : UInt32) : Signature :=
  let uid := verifyOf m.uids k u
  ⟨k, uid, findOf m.signatures uid idx⟩

/-- `UserID::Signature(key, u, s)`. -/
def ofPointer (k : Key) (u s : Option ℕ) : Signature :=
  let uid := verifyOf m.uids k u
  ⟨k, uid, verifyOf m.signatures uid s⟩

/-- `UserID::Signature::isNull`. -/
def isNull (s : Signature) : Bool := s.sig.isNone || s.uid.isNone || s.key.isNone

end Signature

/-- `UserID::signature`. -/
def signature (u : UserID) (index : UInt32) : Signature := .ofIndex m u.key u.uid index

/-- `UserID::numSignatures`. -/
def numSignatures (u : UserID) : UInt32 := numOf m.signatures u.uid

/-- `UserID::signatures`. -/
def signatures (u : UserID) : List Signature :=
  vectorOf m.signatures u.uid fun sig => .ofPointer m u.key u.uid (some sig)

end UserID

namespace Key

/-- `Key::userID`. -/
def userID (k : Key) (index : UInt32) : UserID := .ofIndex m k index

/-- `Key::numUserIDs`. -/
def numUserIDs (k : Key) : UInt32 := numOf m.uids k

/-- `Key::userIDs`. -/
def userIDs (k : Key) : List UserID := vectorOf m.uids k fun uid => .ofPointer m k (some uid)

/-- `Key::subkey`. -/
def subkey (k : Key) (index : UInt32) : Subkey := .ofIndex m k index

/-- `Key::numSubkeys`. -/
def numSubkeys (k : Key) : UInt32 := numOf m.subkeys k

/-- `Key::subkeys`. -/
def subkeys (k : Key) : List Subkey :=
  vectorOf m.subkeys k fun subkey => .ofPointer m k (some subkey)

end Key

/-! ## Notations -/

/-- `nota->name`, as a condition: other notations are policy URLs. -/
def named (nota : SigNotation) : Bool := nota.name.isSome

/-- `Notation(nota)`, or `Notation()` after the loop. -/
def notationOf : Option SigNotation → Notation
  | none => .null
  | some nota => .ofNota (some nota)

namespace UserID.Signature

/-- `UserID::Signature::notation`, in a build with or without the notations of signatures. -/
def notationAt (available : Bool) (s : Signature) (idx : UInt32) : Notation :=
  match s.sig with
  | none => .null
  | some r => if available then notationOf (findIf named (m.notations r) idx) else .null

/-- `UserID::Signature::numNotations`. -/
def numNotations (available : Bool) (s : Signature) : UInt32 :=
  match s.sig with
  | none => 0
  | some r => if available then count named (m.notations r) 0 else 0

/-- `UserID::Signature::notations`. -/
def notations (available : Bool) (s : Signature) : List Notation :=
  match s.sig with
  | none => []
  | some r =>
      if available then collect named (fun nota => .ofNota (some nota)) (m.notations r) else []

end UserID.Signature

namespace Context

/-- `Context::signatureNotation`, with what `gpgme_sig_notation_get` returns if there is such a
function. -/
def signatureNotation (sigNotationGet : Option (List SigNotation)) (idx : UInt32) : Notation :=
  match sigNotationGet with
  | none => .null
  | some l => notationOf (findIf named l idx)

/-- `Context::signatureNotations`. -/
def signatureNotations (sigNotationGet : Option (List SigNotation)) : List Notation :=
  match sigNotationGet with
  | none => []
  | some l => collect named (fun nota => .ofNota (some nota)) l

end Context

/-! ## Agreement -/

section Agreement
variable {m}

/-- The functions that share the loops agree, if an object without a node is null. -/
theorem agree_of {β : Type*} {isNull : β → Prop} (list : ℕ → List ℕ) (owner : Option ℕ)
    (object : Option ℕ → β) (hnull : isNull (object none)) :
    Agree isNull (numOf list owner)
      (vectorOf list owner fun node => object (verifyOf list owner (some node)))
      fun idx => object (findOf list owner idx) := by
  cases owner with
  | none => exact agree_nil hnull
  | some r =>
      refine agree_find object hnull fun node hnode => ?_
      rw [verifyOf, verify_of_mem hnode]

theorem agree_userIDs (k : Key) :
    Agree (fun u => u.isNull = true) (k.numUserIDs m) (k.userIDs m) (k.userID m) :=
  agree_of m.uids k (UserID.mk k) (by simp [UserID.isNull])

theorem agree_subkeys (k : Key) :
    Agree (fun s => s.isNull = true) (k.numSubkeys m) (k.subkeys m) (k.subkey m) :=
  agree_of m.subkeys k (Subkey.mk k) (by simp [Subkey.isNull])

/-- Also for a user ID that is not one of its key: then all signatures are null. -/
theorem agree_signatures (u : UserID) :
    Agree (fun s => s.isNull = true) (u.numSignatures m) (u.signatures m) (u.signature m) := by
  have hverify : verifyOf m.uids u.key u.uid = u.uid ∨ verifyOf m.uids u.key u.uid = none := by
    cases u.key with
    | none => exact .inr rfl
    | some r => exact verify_cases _ _
  rcases hverify with hsame | hnone
  · have hindex : u.signature m = fun idx => ⟨u.key, u.uid, findOf m.signatures u.uid idx⟩ := by
      funext idx
      simp only [UserID.signature, UserID.Signature.ofIndex, hsame]
    rw [hindex]
    simp only [UserID.signatures, UserID.Signature.ofPointer, hsame]
    exact agree_of m.signatures u.uid (UserID.Signature.mk u.key u.uid)
      (by simp [UserID.Signature.isNull])
  · have hindex : u.signature m = fun _ => ⟨u.key, none, none⟩ := by
      funext idx
      simp only [UserID.signature, UserID.Signature.ofIndex, hnone, findOf]
    have hvector : u.signatures m = vectorOf m.signatures u.uid fun _ => ⟨u.key, none, none⟩ := by
      simp only [UserID.signatures, UserID.Signature.ofPointer, hnone]
      rfl
    rw [hindex, hvector]
    exact agree_of m.signatures u.uid (fun _ => UserID.Signature.mk u.key none none)
      (by simp [UserID.Signature.isNull])

theorem agree_notations (available : Bool) (s : UserID.Signature) :
    Agree (fun n => n.isNull = .ok true) (s.numNotations m available) (s.notations m available)
      (s.notationAt m available) := by
  obtain ⟨k, u, sig⟩ := s
  have hnull : Notation.null.isNull = .ok true := rfl
  cases sig with
  | none => exact agree_nil hnull
  | some r =>
      cases available with
      | false => exact agree_nil hnull
      | true => exact agree_findIf notationOf hnull fun nota _ _ => rfl

/-- A context has no function that counts. -/
theorem indexed_signatureNotations (sigNotationGet : Option (List SigNotation)) :
    Indexed (fun n => n.isNull = .ok true) (Context.signatureNotations sigNotationGet)
      (Context.signatureNotation sigNotationGet) := by
  have hnull : Notation.null.isNull = .ok true := rfl
  cases sigNotationGet with
  | none => exact ⟨nofun, fun _ _ => hnull⟩
  | some l =>
      have hagree : Agree (fun n => n.isNull = .ok true) (count named l 0)
          (Context.signatureNotations (some l)) (Context.signatureNotation (some l)) :=
        agree_findIf notationOf hnull fun nota _ _ => rfl
      exact hagree.toIndexed

end Agreement

end Gpgmepp
