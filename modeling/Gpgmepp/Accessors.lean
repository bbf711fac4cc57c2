import Gpgmepp.Configuration.Accessors
import Gpgmepp.Key.Accessors

/-!
# The accessors of lists

For each list there are up to three functions: one that counts, one that returns a vector, and one
that takes an index.  They walk along the list of gpgme in loops of different kinds, and agree, but
for one thing: the number of elements is an `unsigned int`, and known modulo `2 ^ 32` only.

## Main definitions

* `AccessorsAgree` — what all these functions have to do with each other.
-/

namespace Gpgmepp

open Gpgmepp.Configuration Walk

/-- The functions for each kind of list agree: for the lists of a key, in a build with or without
the notations of signatures, for the notations of a context, and for the lists of components and
arguments, for the type of the option. -/
structure AccessorsAgree (m : GpgmeMemory) (available : Bool) (w : World) : Prop where
  userIDs : ∀ k : Key,
    Agree (fun u => u.isNull = true) (k.numUserIDs m) (k.userIDs m) (k.userID m)
  subkeys : ∀ k : Key,
    Agree (fun s => s.isNull = true) (k.numSubkeys m) (k.subkeys m) (k.subkey m)
  signatures : ∀ u : UserID,
    Agree (fun s => s.isNull = true) (u.numSignatures m) (u.signatures m) (u.signature m)
  notations : ∀ s : UserID.Signature,
    Agree (fun n => n.isNull = .ok true) (s.numNotations m available) (s.notations m available)
      (s.notationAt m available)
  signatureNotations : ∀ sigNotationGet,
    Indexed (fun n => n.isNull = .ok true) (Context.signatureNotations sigNotationGet)
      (Context.signatureNotation sigNotationGet)
  options : ∀ comp,
    Agree (fun o => o.isNull w = true) (Component.numOptions w comp) (Component.options w comp)
      (Component.option w comp)
  strings : ∀ a, Argument.OfType w a .string →
    Argument.ValuesAgree w a .string (Argument.Loop.stringValues w a)
      (Argument.Loop.stringValue w a) none
  ints : ∀ a, Argument.OfType w a .int32 →
    Argument.ValuesAgree w a .int32 (Argument.Loop.intValues w a) (Argument.Loop.intValue w a) 0
  uints : ∀ a, Argument.OfType w a .uint32 →
    Argument.ValuesAgree w a .uint32 (Argument.Loop.uintValues w a) (Argument.Loop.uintValue w a) 0

/-- **The accessors of lists agree.** -/
theorem accessorsAgree (m : GpgmeMemory) (available : Bool) (w : World) :
    AccessorsAgree m available w where
  userIDs := agree_userIDs
  subkeys := agree_subkeys
  signatures := agree_signatures
  notations := agree_notations available
  signatureNotations := indexed_signatureNotations
  options := agree_options w
  strings _ h := Argument.agree_strings h
  ints _ h := Argument.agree_ints h
  uints _ h := Argument.agree_uints h

/-- The user IDs of a key, when there are `2 ^ 32` of them. -/
theorem not_numUserIDs_eq_length :
    ¬ ∀ (m : GpgmeMemory) (k : Key), (k.numUserIDs m).toNat = (k.userIDs m).length := by
  intro h
  let m : GpgmeMemory := ⟨fun _ => List.range (2 ^ 32), fun _ => [], fun _ => [], fun _ => []⟩
  have hcount := (agree_userIDs (m := m) (some 0)).num_eq
  have hlength : (Key.userIDs m (some 0)).length = 2 ^ 32 := by
    simp only [Key.userIDs, vectorOf, collect_eq, List.filter_true, List.length_map, m,
      List.length_range]
  rw [h, hlength, Nat.mod_self] at hcount
  omega

end Gpgmepp
