import Gpgmepp.Key.CardKeys

/-!
# Merging keys

Some keys are merged into one.  If their subkeys have fingerprints, each a different one and all
in one letter case, the result is the union of the flags, of those keys that have the same primary
fingerprint, and nothing else: it does not depend on the order of the keys, nor on how often each
of them comes, and the other fields and the other records stay as they are.

## Main definitions

* `mergeAll` — several merges, one after the other.
* `Regular`, `OneCase` — records whose subkeys have different fingerprints, in one letter case.
* `samePrimary` — keys with the same primary fingerprint.
* `combined`, `mergedInto` — the union of flags, and the records with it.
* `MergesUnion`, `mergesUnion` — merging makes it.
-/

namespace Gpgmepp.Key

open Flags

variable {σ ρ : Type*}

/-- Several keys are merged into `k`, from left to right. -/
def mergeAll (w : Records σ ρ) (k : Key) : List Key → Except NullDereference (Records σ ρ)
  | [] => .ok w
  | o :: os =>
      match mergeWith w k o with
      | .ok w => mergeAll w k os
      | .error e => .error e

/-- All subkeys have fingerprints, and no two the same. -/
structure Regular (key : GpgmeKey σ ρ) : Prop where
  hasFpr : ∀ sk ∈ key.subkeys, sk.fpr ≠ none
  distinct : (key.subkeys.map GpgmeSubkey.fpr).Nodup

/-- A capital letter. -/
def isCapital (c : UInt8) : Bool := 65 ≤ c && c ≤ 90

/-- A small letter. -/
def isSmall (c : UInt8) : Bool := 97 ≤ c && c ≤ 122

/-- The fingerprints of a key have no characters of a kind. -/
def Avoids (kind : UInt8 → Bool) (key : GpgmeKey σ ρ) : Prop :=
  ∀ sk ∈ key.subkeys, ∀ f, sk.fpr = some f → ∀ c ∈ f.bytes, kind c = false

/-- The letters in the fingerprints of some keys are all small, or all capital. -/
def OneCase (w : Records σ ρ) (keys : List Key) : Prop :=
  (∀ r, some r ∈ keys → Avoids isCapital (w r)) ∨ ∀ r, some r ∈ keys → Avoids isSmall (w r)

/-- The fingerprint of the first subkey of a record. -/
def primaryFpr (key : GpgmeKey σ ρ) : Option CString := key.subkeys.head?.bind GpgmeSubkey.fpr

/-- Two keys have a primary fingerprint, and the same. -/
def samePrimary (w : Records σ ρ) : Key → Key → Bool
  | some r, some q => (primaryFpr (w r)).isSome && primaryFpr (w r) == primaryFpr (w q)
  | _, _ => false

/-- One of the keys has a subkey with this fingerprint that is on a card. -/
def anyCardkey (hims : List (GpgmeKey σ ρ)) (fpr : Option CString) : Bool :=
  hims.any fun him => him.subkeys.any fun s => s.fpr == fpr && s.isCardkey

/-- A record with the flags of some others. -/
def combined (me : GpgmeKey σ ρ) (hims : List (GpgmeKey σ ρ)) : GpgmeKey σ ρ :=
  { me with
    revoked := me.revoked || hims.any GpgmeKey.revoked
    expired := me.expired || hims.any GpgmeKey.expired
    disabled := me.disabled || hims.any GpgmeKey.disabled
    invalid := me.invalid || hims.any GpgmeKey.invalid
    canEncrypt := me.canEncrypt || hims.any GpgmeKey.canEncrypt
    canSign := me.canSign || hims.any GpgmeKey.canSign
    canCertify := me.canCertify || hims.any GpgmeKey.canCertify
    secret := me.secret || hims.any GpgmeKey.secret
    canAuthenticate := me.canAuthenticate || hims.any GpgmeKey.canAuthenticate
    isQualified := me.isQualified || hims.any GpgmeKey.isQualified
    keylistMode := (hims.map GpgmeKey.keylistMode).foldl (· ||| ·) me.keylistMode
    subkeys := me.subkeys.map fun sk =>
      { sk with isCardkey := sk.isCardkey || anyCardkey hims sk.fpr } }

/-- The records of those keys that have the same primary fingerprint as `k`. -/
def sameKeys (w : Records σ ρ) (k : Key) (os : List Key) : List (GpgmeKey σ ρ) :=
  (os.filter (samePrimary w k)).filterMap fun o => o.map w

/-- The records when some keys have been merged into `k`. -/
def mergedInto (w : Records σ ρ) (k : Key) (os : List Key) : Records σ ρ :=
  match k with
  | some r => Function.update w r (combined (w r) (sameKeys w k os))
  | none => w

/-! ## The guard -/

theorem toLower_of_not_isCapital {c : UInt8} (h : isCapital c = false) : toLower c = c := by
  simp only [isCapital, Bool.and_eq_false_iff, decide_eq_false_iff_not] at h
  rw [toLower, if_neg]
  rintro ⟨hlo, hhi⟩
  exact h.elim (fun hn => hn hlo) fun hn => hn hhi

/-- The capital of a small letter. -/
def toUpper (c : UInt8) : UInt8 := if 97 ≤ c ∧ c ≤ 122 then c - 32 else c

theorem toUpper_toLower {c : UInt8} (h : isSmall c = false) : toUpper (toLower c) = c := by
  have hsmall : ¬ (97 ≤ c ∧ c ≤ 122) := by simpa [isSmall] using h
  by_cases hcap : 65 ≤ c ∧ c ≤ 90
  · have hup : 97 ≤ c + 32 ∧ c + 32 ≤ 122 := by
      simp only [UInt8.le_iff_toNat_le, UInt8.toNat_add] at hcap ⊢
      have h32 : (32 : UInt8).toNat = 32 := rfl
      have h65 : (65 : UInt8).toNat = 65 := rfl
      have h90 : (90 : UInt8).toNat = 90 := rfl
      have h97 : (97 : UInt8).toNat = 97 := rfl
      have h122 : (122 : UInt8).toNat = 122 := rfl
      omega
    rw [toLower, if_pos hcap, toUpper, if_pos hup, UInt8.add_sub_cancel]
  · rw [toLower, if_neg hcap, toUpper, if_neg hsmall]

/-- In one letter case `strcasecmp` compares like `strcmp`. -/
theorem caseEq_iff {f g : CString}
    (h : (∀ c ∈ f.bytes ++ g.bytes, isCapital c = false) ∨
      ∀ c ∈ f.bytes ++ g.bytes, isSmall c = false) : f.caseEq g ↔ f = g := by
  refine ⟨fun heq => CString.bytes_inj.mp ?_, fun heq => by rw [heq]; rfl⟩
  rcases h with hcap | hsmall
  · have hsame : ∀ l : List UInt8, (∀ c ∈ l, isCapital c = false) → l.map toLower = l := by
      intro l hl
      exact (List.map_congr_left fun c hc => toLower_of_not_isCapital (hl c hc)).trans
        (List.map_id l)
    rw [← hsame f.bytes fun c hc => hcap c (List.mem_append_left _ hc),
      ← hsame g.bytes fun c hc => hcap c (List.mem_append_right _ hc)]
    exact heq
  · have hsame : ∀ l : List UInt8, (∀ c ∈ l, isSmall c = false) →
        (l.map toLower).map toUpper = l := by
      intro l hl
      rw [List.map_map]
      exact (List.map_congr_left fun c hc => toUpper_toLower (hl c hc)).trans (List.map_id l)
    rw [← hsame f.bytes fun c hc => hsmall c (List.mem_append_left _ hc),
      ← hsame g.bytes fun c hc => hsmall c (List.mem_append_right _ hc)]
    exact congrArg (List.map toUpper) heq

theorem primaryFpr_of_regular {key : GpgmeKey σ ρ} (h : Regular key) {sk : GpgmeSubkey σ}
    (hsk : key.subkeys.head? = some sk) : ∃ f, sk.fpr = some f ∧ primaryFpr key = some f := by
  obtain ⟨f, hf⟩ := Option.ne_none_iff_exists'.mp (h.hasFpr sk (List.mem_of_mem_head? hsk))
  exact ⟨f, hf, by simp [primaryFpr, hsk, hf]⟩

/-- **The guard of `mergeWith`** finds the keys with the same primary fingerprint. -/
theorem sameKey_eq_samePrimary {w : Records σ ρ} {keys : List Key}
    (h : ∀ o ∈ keys, ∀ r, o = some r → Regular (w r)) (hcase : OneCase w keys) {k o : Key}
    (hk : k ∈ keys) (ho : o ∈ keys) : sameKey w k o = samePrimary w k o := by
  have hnone : ∀ (x : Key), x.bind (fun r => (w r).subkeys.head?) = none →
      primaryFingerprint w x = none := by
    intro x hx
    cases x with
    | none => rfl
    | some r =>
        have hr : (w r).subkeys.head? = none := hx
        simp [primaryFingerprint, keyID, hr]
  have hsome : ∀ r, some r ∈ keys → ∀ sk, (w r).subkeys.head? = some sk →
      ∃ f, sk.fpr = some f ∧ primaryFpr (w r) = some f ∧
        primaryFingerprint w (some r) = some f := by
    intro r hr sk hsk
    obtain ⟨f, hf, hprimary⟩ := primaryFpr_of_regular (h _ hr r rfl) hsk
    exact ⟨f, hf, hprimary, by simp [primaryFingerprint, hsk, hf]⟩
  cases k with
  | none => simp [sameKey, samePrimary, hnone none rfl]
  | some r =>
      cases o with
      | none => simp [sameKey, samePrimary, hnone none rfl]
      | some q =>
          cases hr : (w r).subkeys.head? with
          | none => simp [sameKey, samePrimary, primaryFpr, hr, hnone (some r) hr]
          | some s =>
              obtain ⟨f, hf, hpf, hprf⟩ := hsome r hk s hr
              cases hq : (w q).subkeys.head? with
              | none =>
                  have hpq : primaryFpr (w q) = none := by simp [primaryFpr, hq]
                  simp [sameKey, samePrimary, hpf, hpq, hnone (some q) hq]
              | some t =>
                  obtain ⟨g, hg, hpg, hprg⟩ := hsome q ho t hq
                  have hone : f.caseEq g ↔ f = g := by
                    apply caseEq_iff
                    refine hcase.imp (fun hall c hc => ?_) fun hall c hc => ?_
                    · rcases List.mem_append.mp hc with hc | hc
                      · exact hall r hk s (List.mem_of_mem_head? hr) f hf c hc
                      · exact hall q ho t (List.mem_of_mem_head? hq) g hg c hc
                    · rcases List.mem_append.mp hc with hc | hc
                      · exact hall r hk s (List.mem_of_mem_head? hr) f hf c hc
                      · exact hall q ho t (List.mem_of_mem_head? hq) g hg c hc
                  rw [Bool.eq_iff_iff]
                  simp [sameKey, samePrimary, hprf, hprg, hpf, hpg, hone]

/-- The records that the guard lets through. -/
def guardedKeys (w : Records σ ρ) (k : Key) (os : List Key) : List (GpgmeKey σ ρ) :=
  (os.filter (sameKey w k)).filterMap fun o => o.map w

/-! ## The union -/

/-- The union of a list is made one by one. -/
theorem combined_cons (me him : GpgmeKey σ ρ) (hims : List (GpgmeKey σ ρ)) :
    combined (combined me [him]) hims = combined me (him :: hims) := by
  simp [combined, anyCardkey, Bool.or_assoc]

/-- It depends on what is in the list only. -/
theorem combined_congr {hims hims' : List (GpgmeKey σ ρ)} (h : ∀ him, him ∈ hims ↔ him ∈ hims')
    (me : GpgmeKey σ ρ) : combined me hims = combined me hims' := by
  have hany : ∀ p : GpgmeKey σ ρ → Bool, hims.any p = hims'.any p := by
    intro p
    rw [Bool.eq_iff_iff, List.any_eq_true, List.any_eq_true]
    simp only [h]
  have hmem : ∀ m, m ∈ hims.map GpgmeKey.keylistMode ↔ m ∈ hims'.map GpgmeKey.keylistMode := by
    simp [h]
  have hmode := foldl_or_congr hmem me.keylistMode
  simp only [combined, anyCardkey, hany, hmode]

/-- A subkey of a regular record is the only one with its fingerprint. -/
theorem Regular.eq_of_fpr {key : GpgmeKey σ ρ} (h : Regular key) {s t : GpgmeSubkey σ}
    (hs : s ∈ key.subkeys) (ht : t ∈ key.subkeys) (hfpr : s.fpr = t.fpr) : s = t :=
  List.inj_on_of_nodup_map h.distinct hs ht hfpr

/-- A record has its own flags already. -/
theorem combined_self {me : GpgmeKey σ ρ} (h : Regular me) : combined me [me] = me := by
  have hsubkeys : (me.subkeys.map fun sk =>
      { sk with isCardkey := sk.isCardkey || anyCardkey [me] sk.fpr }) = me.subkeys := by
    refine (List.map_congr_left fun sk hsk => ?_).trans (List.map_id _)
    have hcard : (sk.isCardkey || anyCardkey [me] sk.fpr) = sk.isCardkey := by
      rw [Bool.or_eq_left_iff_imp]
      intro hany
      obtain ⟨s, hs, hfpr⟩ : ∃ s ∈ me.subkeys, (s.fpr == sk.fpr && s.isCardkey) = true := by
        simpa [anyCardkey] using hany
      simp only [Bool.and_eq_true, beq_iff_eq] at hfpr
      rw [← h.eq_of_fpr hs hsk hfpr.1]
      exact hfpr.2
    rw [hcard]
    rfl
  obtain ⟨revoked, expired, disabled, invalid, canEncrypt, canSign, canCertify, secret,
    canAuthenticate, isQualified, keylistMode, subkeys, rest⟩ := me
  simp only [combined] at hsubkeys ⊢
  rw [hsubkeys]
  simp

/-! ## One merge -/

/-- The first subkey with a fingerprint of a regular record is the only one. -/
theorem marked_eq {him : GpgmeKey σ ρ} (h : Regular him) (m : GpgmeSubkey σ) :
    marked him.subkeys m = { m with isCardkey := m.isCardkey || anyCardkey [him] m.fpr } := by
  have hflag : (him.subkeys.find? fun s => s.fpr == m.fpr).elim false GpgmeSubkey.isCardkey =
      anyCardkey [him] m.fpr := by
    rw [Bool.eq_iff_iff]
    simp only [anyCardkey, List.any_cons, List.any_nil, Bool.or_false, List.any_eq_true,
      Bool.and_eq_true, beq_iff_eq]
    cases hfind : him.subkeys.find? fun s => s.fpr == m.fpr with
    | none =>
        have hnone : ∀ s ∈ him.subkeys, s.fpr ≠ m.fpr := by simpa using hfind
        refine iff_of_false (by simp) ?_
        rintro ⟨s, hs, hfpr, -⟩
        exact hnone s hs hfpr
    | some t =>
        have ht := List.mem_of_find?_eq_some hfind
        have htfpr : t.fpr = m.fpr := by simpa using List.find?_some hfind
        constructor
        · exact fun hcard => ⟨t, ht, htfpr, hcard⟩
        · rintro ⟨s, hs, hfpr, hcard⟩
          rw [h.eq_of_fpr hs ht (hfpr.trans htfpr.symm)] at hcard
          exact hcard
  rw [marked, orCardkey, hflag]

/-- **One merge of regular records** makes the union of both. -/
theorem mergeWith_regular {w : Records σ ρ} {r q : ℕ} (hr : Regular (w r)) (hq : Regular (w q))
    (hsame : sameKey w (some r) (some q) = true) :
    mergeWith w (some r) (some q) = .ok (Function.update w r (combined (w r) [w q])) := by
  have hcomparable : ∀ m ∈ (w r).subkeys, Comparable (w q).subkeys m.fpr := by
    intro m hm
    obtain ⟨f, hf⟩ := Option.ne_none_iff_exists'.mp (hr.hasFpr m hm)
    exact ⟨f, hf, fun s hs => hq.hasFpr s ((List.takeWhile_sublist _).subset hs)⟩
  have hmarked : (w r).subkeys.map (marked (w q).subkeys) = (combined (w r) [w q]).subkeys :=
    List.map_congr_left fun m _ => marked_eq hq m
  rw [mergeWith_eq hsame]
  rcases markAll_cases (subkeys_ne_nil (isSome_of_sameKey hsame)) (w r).subkeys with
    ⟨-, hmark⟩ | ⟨hnot, -⟩
  · rw [hmark, hmarked]
    simp [Except.map, mergeFlags, combined]
  · exact absurd hcomparable hnot

/-! ## Several merges -/

/-- What a union does not change: whether keys are the same, and whether they are regular. -/
theorem sameKey_update {w : Records σ ρ} {r : ℕ} (hims : List (GpgmeKey σ ρ)) :
    sameKey (Function.update w r (combined (w r) hims)) = sameKey w := by
  have hhead : ∀ q, (Function.update w r (combined (w r) hims) q).subkeys.head?.bind
        GpgmeSubkey.fpr = (w q).subkeys.head?.bind GpgmeSubkey.fpr ∧
      (Function.update w r (combined (w r) hims) q).subkeys.head?.bind GpgmeSubkey.keyid =
        (w q).subkeys.head?.bind GpgmeSubkey.keyid := by
    intro q
    by_cases hq : q = r
    · subst hq
      rw [Function.update_self]
      cases h : (w q).subkeys with
      | nil => simp [combined, h]
      | cons s l => simp [combined, h]
    · rw [Function.update_of_ne hq]
      exact ⟨rfl, rfl⟩
  have hprimary : primaryFingerprint (Function.update w r (combined (w r) hims)) =
      primaryFingerprint w := by
    funext k
    cases k with
    | none => rfl
    | some q => simp only [primaryFingerprint, keyID, Option.bind_some, (hhead q).1, (hhead q).2]
  funext this other
  simp only [sameKey, hprimary]

theorem regular_combined {me : GpgmeKey σ ρ} (h : Regular me) (hims : List (GpgmeKey σ ρ)) :
    Regular (combined me hims) := by
  refine ⟨?_, ?_⟩
  · intro sk hsk
    obtain ⟨s, hs, rfl⟩ := List.mem_map.mp hsk
    exact h.hasFpr s hs
  · have hfpr : (combined me hims).subkeys.map GpgmeSubkey.fpr =
        me.subkeys.map GpgmeSubkey.fpr := by
      simp [combined, Function.comp_def]
    rw [hfpr]
    exact h.distinct

/-- Merging a key with itself changes nothing. -/
theorem mergeWith_self {w : Records σ ρ} {k : Key} (h : ∀ r, k = some r → Regular (w r)) :
    mergeWith w k k = .ok w := by
  cases hsame : sameKey w k k with
  | false => exact mergeWith_of_not hsame
  | true =>
      cases k with
      | none => simp [sameKey, primaryFingerprint, keyID] at hsame
      | some r =>
          have hr := h r rfl
          rw [mergeWith_regular hr hr hsame, combined_self hr, Function.update_eq_self]

/-- The keys with other records are those that they were. -/
theorem guardedKeys_update {w : Records σ ρ} {r : ℕ} (hims : List (GpgmeKey σ ρ)) {os : List Key}
    (hos : some r ∉ os) :
    guardedKeys (Function.update w r (combined (w r) hims)) (some r) os = guardedKeys w (some r) os := by
  rw [guardedKeys, sameKey_update, guardedKeys]
  refine List.filterMap_congr fun o ho => ?_
  cases o with
  | none => rfl
  | some q =>
      have hne : q ≠ r := by
        rintro rfl
        exact hos (List.mem_filter.mp ho).1
      simp [Function.update_of_ne hne]

/-- **Several merges** make the union of the keys that have other records. -/
theorem mergeAll_eq {r : ℕ} (os : List Key) :
    ∀ {w : Records σ ρ}, Regular (w r) → (∀ q, some q ∈ os → Regular (w q)) →
      mergeAll w (some r) os = .ok (Function.update w r
        (combined (w r) (guardedKeys w (some r) (os.filter (· ≠ some r))))) := by
  induction os with
  | nil =>
      intro w _ _
      simp [mergeAll, guardedKeys, combined, anyCardkey]
  | cons o os ih =>
      intro w hr hos
      have hrest : ∀ q, some q ∈ os → Regular (w q) := fun q hq => hos q (List.mem_cons_of_mem o hq)
      by_cases hself : o = some r
      · -- the key itself
        subst hself
        have hmerge : mergeWith w (some r) (some r) = .ok w :=
          mergeWith_self fun q hq => Option.some.inj hq ▸ hr
        rw [mergeAll, hmerge, List.filter_cons_of_neg (by simp)]
        exact ih hr hrest
      · rw [mergeAll, List.filter_cons_of_pos (by simpa using hself)]
        cases hsame : sameKey w (some r) o with
        | false =>
            -- another key
            rw [mergeWith_of_not hsame]
            simp only [ih hr hrest, guardedKeys, List.filter_cons, hsame, Bool.false_eq_true, if_false]
        | true =>
            cases o with
            | none => simp [sameKey, primaryFingerprint, keyID] at hsame
            | some q =>
                rw [mergeWith_regular hr (hos q List.mem_cons_self) hsame]
                have hr' : Regular (Function.update w r (combined (w r) [w q]) r) := by
                  rw [Function.update_self]
                  exact regular_combined hr _
                have hrest' : ∀ p, some p ∈ os →
                    Regular (Function.update w r (combined (w r) [w q]) p) := by
                  intro p hp
                  by_cases hpr : p = r
                  · rw [hpr]
                    exact hr'
                  · rw [Function.update_of_ne hpr]
                    exact hrest p hp
                have hkeys : guardedKeys w (some r) (some q :: os.filter (· ≠ some r)) =
                    w q :: guardedKeys w (some r) (os.filter (· ≠ some r)) := by
                  simp [guardedKeys, hsame]
                simp only [ih hr' hrest']
                rw [guardedKeys_update _ (by simp), Function.update_self, Function.update_idem,
                  combined_cons, hkeys]

/-- The records of the keys that are the same key. -/
theorem mem_guardedKeys {w : Records σ ρ} {k : Key} {os : List Key} {him : GpgmeKey σ ρ} :
    him ∈ guardedKeys w k os ↔ ∃ q, some q ∈ os ∧ sameKey w k (some q) = true ∧ w q = him := by
  simp only [guardedKeys, List.mem_filterMap, List.mem_filter, Option.map_eq_some_iff]
  constructor
  · rintro ⟨o, ⟨ho, hsame⟩, q, rfl, hq⟩
    exact ⟨q, ho, hsame, hq⟩
  · rintro ⟨q, ho, hsame, hq⟩
    exact ⟨some q, ⟨ho, hsame⟩, q, rfl, hq⟩

/-- A key adds nothing to itself. -/
theorem combined_guardedKeys {w : Records σ ρ} {r : ℕ} (hr : Regular (w r)) (os : List Key) :
    combined (w r) (guardedKeys w (some r) (os.filter (· ≠ some r))) =
      combined (w r) (guardedKeys w (some r) os) := by
  have hfilter : ∀ q, some q ∈ os.filter (· ≠ some r) ↔ some q ∈ os ∧ q ≠ r := by simp
  by_cases hself : some r ∈ os ∧ sameKey w (some r) (some r) = true
  · -- with its own record first, the lists have the same members
    have hmem : ∀ him, him ∈ w r :: guardedKeys w (some r) (os.filter (· ≠ some r)) ↔
        him ∈ guardedKeys w (some r) os := by
      intro him
      rw [List.mem_cons, mem_guardedKeys, mem_guardedKeys]
      constructor
      · rintro (rfl | ⟨q, hq, hsame, hhim⟩)
        · exact ⟨r, hself.1, hself.2, rfl⟩
        · exact ⟨q, ((hfilter q).mp hq).1, hsame, hhim⟩
      · rintro ⟨q, hq, hsame, hhim⟩
        by_cases hqr : q = r
        · exact Or.inl (hqr ▸ hhim.symm)
        · exact Or.inr ⟨q, (hfilter q).mpr ⟨hq, hqr⟩, hsame, hhim⟩
    rw [← combined_congr hmem, ← combined_cons, combined_self hr]
  · refine combined_congr (fun him => ?_) (w r)
    rw [mem_guardedKeys, mem_guardedKeys]
    refine exists_congr fun q => ?_
    rw [hfilter]
    constructor
    · rintro ⟨⟨hq, -⟩, hsame, hhim⟩
      exact ⟨hq, hsame, hhim⟩
    · rintro ⟨hq, hsame, hhim⟩
      refine ⟨⟨hq, ?_⟩, hsame, hhim⟩
      rintro rfl
      exact hself ⟨hq, hsame⟩

/-- Nothing is merged into a null key. -/
theorem mergeAll_none (w : Records σ ρ) (os : List Key) : mergeAll w none os = .ok w := by
  induction os with
  | nil => rfl
  | cons o os ih =>
      have hsame : sameKey w none o = false := by simp [sameKey, primaryFingerprint, keyID]
      rw [mergeAll, mergeWith_of_not hsame]
      exact ih

/-- **The law of merging**: in any order, and however often each key comes, the union of the flags
is made, and a key that is merged with itself is left as it is. -/
structure MergesUnion (w : Records σ ρ) (k : Key) (os : List Key) : Prop where
  union : ∀ os', (∀ o, o ∈ os' ↔ o ∈ os) → mergeAll w k os' = .ok (mergedInto w k os)
  self : mergeWith w k k = .ok w
  /-- Null keys and other keys have no effect. -/
  other : ∀ o ∈ os, samePrimary w k o = false → mergeWith w k o = .ok w

/-- **Merging makes the union**, whatever keys with regular records in one letter case there
are. -/
theorem mergesUnion {w : Records σ ρ} {k : Key} {os : List Key}
    (h : ∀ o ∈ k :: os, ∀ r, o = some r → Regular (w r)) (hcase : OneCase w (k :: os)) :
    MergesUnion w k os where
  union := by
    intro os' hos'
    cases k with
    | none => exact mergeAll_none w os'
    | some r =>
        have hr := h _ List.mem_cons_self r rfl
        have hregular : ∀ q, some q ∈ os' → Regular (w q) :=
          fun q hq => h _ (List.mem_cons_of_mem _ ((hos' _).mp hq)) q rfl
        have hmem : ∀ him, him ∈ guardedKeys w (some r) os' ↔ him ∈ guardedKeys w (some r) os := by
          simp only [mem_guardedKeys, hos', implies_true]
        have hguard : guardedKeys w (some r) os = sameKeys w (some r) os := by
          rw [guardedKeys, sameKeys, List.filter_congr fun o ho =>
            sameKey_eq_samePrimary h hcase List.mem_cons_self (List.mem_cons_of_mem _ ho)]
        rw [mergeAll_eq os' hr hregular, combined_guardedKeys hr, combined_congr hmem, mergedInto,
          hguard]
  self := mergeWith_self (h k List.mem_cons_self)
  other := by
    intro o ho hsame
    rw [← sameKey_eq_samePrimary h hcase List.mem_cons_self (List.mem_cons_of_mem _ ho)] at hsame
    exact mergeWith_of_not hsame

/-- A key is merged with one that has the same subkey on a card, with itself, and with none: the
flag is taken over. -/
theorem mergesUnion_sameSubkeyTwice :
    MergesUnion sameSubkeyTwice (some 0) [some 1, none, some 0, some 1] ∧
      (mergedInto sameSubkeyTwice (some 0) [some 1, none, some 0, some 1] 0).subkeys.map
        GpgmeSubkey.isCardkey = [true] := by
  have hregular : ∀ r, Regular (sameSubkeyTwice r) := by
    intro r
    cases r with
    | zero => constructor <;> simp [sameSubkeyTwice, oneSubkeyEach, plainKey]
    | succ r => constructor <;> simp [sameSubkeyTwice, oneSubkeyEach, plainKey]
  have hcapital : ∀ r, Avoids isSmall (sameSubkeyTwice r) := by
    have hbytes : (CString.lit "AB").bytes = [0x41, 0x42] := rfl
    have hletters : ∀ c ∈ (CString.lit "AB").bytes, isSmall c = false := by
      simp [hbytes, isSmall]
    intro r
    cases r with
    | zero => simpa [Avoids, sameSubkeyTwice, oneSubkeyEach, plainKey] using hletters
    | succ r => simpa [Avoids, sameSubkeyTwice, oneSubkeyEach, plainKey] using hletters
  exact ⟨mergesUnion (fun _ _ r _ => hregular r) (.inr fun r _ => hcapital r), by decide⟩

end Gpgmepp.Key
