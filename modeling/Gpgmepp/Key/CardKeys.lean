import Gpgmepp.Key

/-!
# The flags of subkeys on cards

`mergeWith` makes sure that the flag `is_cardkey` is not lost.  Its guard takes keys for the same
that differ in the case of a letter, or that lack a fingerprint; the loop that follows compares
the fingerprints of the subkeys by `strcmp`, without a test for null pointers.  So a subkey
without a fingerprint is a crash if the loop comes to it, and the flag of a subkey whose
fingerprint is written in another case is lost.

## Main definitions

* `Comparable`, `marked` — where the loop gets through, and what it makes of a subkey then.
* `SameSubkey`, `KeepsCardkeys` — the law of the flag.
* `keepsCardkeys_iff` — the keys for which it holds.
-/

namespace Gpgmepp.Key

variable {σ ρ : Type*}

/-- There is a fingerprint, and so there is in all of the subkeys before the first that has the
same. -/
def Comparable (his : List (GpgmeSubkey σ)) (fpr : Option CString) : Prop :=
  ∃ f, fpr = some f ∧ ∀ s ∈ his.takeWhile fun s => s.fpr != some f, s.fpr ≠ none

/-- A subkey with the flag of the first of `his` that has exactly its fingerprint. -/
def marked (his : List (GpgmeSubkey σ)) (mysk : GpgmeSubkey σ) : GpgmeSubkey σ :=
  orCardkey mysk (his.find? fun s => s.fpr == mysk.fpr)

/-- The inner loop, looking for a fingerprint. -/
theorem findSubkey_some (f : CString) (his : List (GpgmeSubkey σ)) :
    findSubkey (some f) his =
      if ∀ s ∈ his.takeWhile (fun s : GpgmeSubkey σ => s.fpr != some f), s.fpr ≠ none then
        Except.ok (his.find? fun s => s.fpr == some f)
      else Except.error NullDereference.nullDereference := by
  induction his with
  | nil => simp [findSubkey]
  | cons s his ih =>
      cases hs : s.fpr with
      | none => simp [findSubkey, hs]
      | some g =>
          by_cases hfg : f = g
          · simp [findSubkey, hs, hfg]
          · have hne : (some g == some f) = false := by simp [Ne.symm hfg]
            have htake : ((s :: his).takeWhile fun s => s.fpr != some f) =
                s :: his.takeWhile fun s => s.fpr != some f := by
              rw [List.takeWhile_cons, hs]
              simp [Ne.symm hfg]
            have hfind : ((s :: his).find? fun s => s.fpr == some f) =
                his.find? fun s => s.fpr == some f := by
              rw [List.find?_cons, hs, hne]
            simp only [findSubkey, hs, if_neg hfg, ih, htake, hfind, List.forall_mem_cons, ne_eq,
              reduceCtorEq, not_false_eq_true, true_and]

/-- **The inner loop** finds the first subkey with exactly the fingerprint, or dereferences a null
pointer. -/
theorem findSubkey_cases (fpr : Option CString) {his : List (GpgmeSubkey σ)} (hne : his ≠ []) :
    (Comparable his fpr ∧ findSubkey fpr his = .ok (his.find? fun s => s.fpr == fpr)) ∨
      (¬ Comparable his fpr ∧ findSubkey fpr his = .error .nullDereference) := by
  cases fpr with
  | none =>
      obtain ⟨s, his, rfl⟩ := List.exists_cons_of_ne_nil hne
      refine .inr ⟨?_, rfl⟩
      rintro ⟨f, hf, -⟩
      cases hf
  | some f =>
      rw [findSubkey_some]
      by_cases h : ∀ s ∈ his.takeWhile fun s => s.fpr != some f, s.fpr ≠ none
      · exact .inl ⟨⟨f, rfl, h⟩, if_pos h⟩
      · refine .inr ⟨?_, if_neg h⟩
        rintro ⟨g, hg, h'⟩
        obtain rfl := Option.some.inj hg
        exact h h'

/-- **The loop** marks all subkeys, or dereferences a null pointer. -/
theorem markAll_cases {his : List (GpgmeSubkey σ)} (hne : his ≠ []) (mine : List (GpgmeSubkey σ)) :
    ((∀ m ∈ mine, Comparable his m.fpr) ∧ markAll his mine = .ok (mine.map (marked his))) ∨
      (¬ (∀ m ∈ mine, Comparable his m.fpr) ∧ markAll his mine = .error .nullDereference) := by
  induction mine with
  | nil => exact .inl ⟨by simp, rfl⟩
  | cons m mine ih =>
      rw [List.forall_mem_cons, markAll, markFirst]
      rcases findSubkey_cases m.fpr hne with ⟨hm, hfind⟩ | ⟨hm, hfind⟩
      · rcases ih with ⟨hall, hmark⟩ | ⟨hall, hmark⟩
        · refine .inl ⟨⟨hm, hall⟩, ?_⟩
          rw [hfind, hmark]
          rfl
        · refine .inr ⟨fun h => hall h.2, ?_⟩
          rw [hfind, hmark]
          rfl
      · refine .inr ⟨fun h => hm h.1, ?_⟩
        rw [hfind]
        rfl

/-! ## The law -/

/-- Both subkeys have fingerprints, which are the same but for the case of letters. -/
def SameSubkey (m s : GpgmeSubkey σ) : Prop :=
  ∃ f g, m.fpr = some f ∧ s.fpr = some g ∧ f.caseEq g

/-- **The law of the flag**: the merge completes, and a subkey that both keys describe is on a card
if it was in one of them. -/
def KeepsCardkeys (w : Records σ ρ) (me him : ℕ) : Prop :=
  ∃ w', mergeWith w (some me) (some him) = .ok w' ∧
    ∀ (i : ℕ) m, (w me).subkeys[i]? = some m → ∀ s ∈ (w him).subkeys, SameSubkey m s →
      (m.isCardkey || s.isCardkey) = true →
        ∃ m', (w' me).subkeys[i]? = some m' ∧ m'.isCardkey = true

/-- The key has a subkey, if it has a primary fingerprint. -/
theorem subkeys_ne_nil {w : Records σ ρ} {r : ℕ}
    (h : (primaryFingerprint w (some r)).isSome = true) : (w r).subkeys ≠ [] := by
  intro hnil
  simp [primaryFingerprint, keyID, hnil] at h

theorem isSome_of_sameKey {w : Records σ ρ} {this other : Key} (h : sameKey w this other = true) :
    (primaryFingerprint w other).isSome = true := by
  simp only [sameKey] at h
  split at h
  · next hother => rw [hother]; rfl
  · cases h

/-- A merge marks all subkeys, or dereferences a null pointer. -/
theorem mergeWith_cases {w : Records σ ρ} {me him : ℕ}
    (h : sameKey w (some me) (some him) = true) :
    ((∀ m ∈ (w me).subkeys, Comparable (w him).subkeys m.fpr) ∧
        ∃ w', mergeWith w (some me) (some him) = .ok w' ∧
          (w' me).subkeys = (w me).subkeys.map (marked (w him).subkeys)) ∨
      (¬ (∀ m ∈ (w me).subkeys, Comparable (w him).subkeys m.fpr) ∧
        mergeWith w (some me) (some him) = .error .nullDereference) := by
  rw [mergeWith_eq h]
  rcases markAll_cases (subkeys_ne_nil (isSome_of_sameKey h)) (w me).subkeys with
    ⟨hall, hmark⟩ | ⟨hall, hmark⟩
  · refine .inl ⟨hall, _, by rw [hmark]; rfl, ?_⟩
    simp
  · refine .inr ⟨hall, ?_⟩
    rw [hmark]
    rfl

/-- **The flag is kept exactly if** each subkey has a fingerprint, the other key's subkeys that it
is compared with have one, and, where a subkey is on a card in the other key only, the first
subkey there with exactly its fingerprint is. -/
theorem keepsCardkeys_iff {w : Records σ ρ} {me him : ℕ}
    (h : sameKey w (some me) (some him) = true) :
    KeepsCardkeys w me him ↔
      (∀ m ∈ (w me).subkeys, Comparable (w him).subkeys m.fpr) ∧
        ∀ m ∈ (w me).subkeys, m.isCardkey = false → ∀ s ∈ (w him).subkeys, SameSubkey m s →
          s.isCardkey = true → ∃ s', (w him).subkeys.find? (fun s => s.fpr == m.fpr) = some s' ∧
            s'.isCardkey = true := by
  rw [KeepsCardkeys]
  rcases mergeWith_cases h with ⟨hall, w', hmerge, hsubkeys⟩ | ⟨hall, hmerge⟩
  · refine Iff.trans ?_ (and_iff_right hall).symm
    constructor
    · rintro ⟨w₁, hw₁, hflag⟩ m hm hmine s hs hsame his
      obtain rfl : w' = w₁ := Except.ok.inj (hmerge.symm.trans hw₁)
      obtain ⟨i, hi⟩ := List.getElem?_of_mem hm
      obtain ⟨m', hm', hcard⟩ := hflag i m hi s hs hsame (by simp [his])
      obtain rfl : marked (w him).subkeys m = m' := by
        simpa [hsubkeys, List.getElem?_map, hi] using hm'
      cases hfind : (w him).subkeys.find? fun s => s.fpr == m.fpr with
      | none => simp [marked, orCardkey, hfind, hmine] at hcard
      | some s' => exact ⟨s', rfl, by simpa [marked, orCardkey, hfind, hmine] using hcard⟩
    · intro hfound
      refine ⟨w', hmerge, fun i m hi s hs hsame hflag => ⟨marked (w him).subkeys m, ?_, ?_⟩⟩
      · rw [hsubkeys, List.getElem?_map, hi]
        rfl
      · cases hmine : m.isCardkey with
        | true => simp [marked, orCardkey, hmine]
        | false =>
            have his : s.isCardkey = true := by simpa [hmine] using hflag
            obtain ⟨s', hs', hcard⟩ := hfound m (List.mem_of_getElem? hi) hmine s hs hsame his
            simp [marked, orCardkey, hs', hcard]
  · refine iff_of_false ?_ fun h => hall h.1
    rintro ⟨w', hw', -⟩
    cases hmerge.symm.trans hw'

/-- A key with nothing set, and these subkeys. -/
def plainKey (subkeys : List (GpgmeSubkey Unit)) : GpgmeKey Unit Unit where
  revoked := false
  expired := false
  disabled := false
  invalid := false
  canEncrypt := false
  canSign := false
  canCertify := false
  secret := false
  canAuthenticate := false
  isQualified := false
  keylistMode := 0
  subkeys := subkeys
  rest := ()

/-- Two records of keys with one subkey each, of which the second is on a card. -/
def oneSubkeyEach (f g : Option CString) : Records Unit Unit
  | 0 => plainKey [⟨f, some (.lit "KEYID"), false, ()⟩]
  | _ => plainKey [⟨g, some (.lit "KEYID"), true, ()⟩]

/-- Two keys with the same subkey. -/
def sameSubkeyTwice : Records Unit Unit := oneSubkeyEach (some (.lit "AB")) (some (.lit "AB"))

theorem keepsCardkeys_sameSubkeyTwice :
    KeepsCardkeys sameSubkeyTwice 0 1 ↔
      (∀ m ∈ (sameSubkeyTwice 0).subkeys, Comparable (sameSubkeyTwice 1).subkeys m.fpr) ∧
        ∀ m ∈ (sameSubkeyTwice 0).subkeys, m.isCardkey = false →
          ∀ s ∈ (sameSubkeyTwice 1).subkeys, SameSubkey m s → s.isCardkey = true →
            ∃ s', (sameSubkeyTwice 1).subkeys.find? (fun s => s.fpr == m.fpr) = some s' ∧
              s'.isCardkey = true :=
  keepsCardkeys_iff (by decide)

/-- Keys without fingerprints but with one key ID are the same key, and a crash. -/
theorem not_keepsCardkeys_null :
    ¬ ∀ (w : Records Unit Unit) (me him : ℕ), sameKey w (some me) (some him) = true →
      KeepsCardkeys w me him := by
  intro h
  obtain ⟨w', hw', -⟩ := h (oneSubkeyEach none none) 0 1 (by decide)
  have hmerge : mergeWith (oneSubkeyEach none none) (some 0) (some 1) =
    .error .nullDereference := rfl
  cases hmerge.symm.trans hw'

end Gpgmepp.Key
