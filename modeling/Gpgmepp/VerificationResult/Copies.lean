import Gpgmepp.VerificationResult

/-!
# What the objects of a verification show

The three vectors of the copy have one length, that of gpgme's list, and the elements with one
index are those of one signature.  So the objects show the signatures and notations as gpgme
reported them, as far as the indices go: a number of signatures, or of notations of one
signature, that does not fit in 32 bits is reported wrong, or the loop that makes the vector
does not end.

## Main definitions

* `namedNotations`, `lastPolicyURL` — what the copy keeps of a list of notations.
* `ofResult_eq` — the three vectors.
* `CopiesResult`, `copiesResult_iff` — what the objects should show, and when they do.
-/

namespace Gpgmepp.VerificationResult

open Collect Flags

/-! ## The copy -/

/-- The notations with a name, as they are kept. -/
def namedNotations (l : List SigNotation) : List Nota :=
  l.filterMap fun n => n.name.map fun name => ⟨name, n.value, n.flags⟩

/-- The values of the notations without a name. -/
def policyURLs (l : List SigNotation) : List (Option CString) :=
  (l.filter (·.name.isNone)).map SigNotation.value

/-- The policy URL that is kept: the last one that is not null. -/
def lastPolicyURL (l : List SigNotation) : Option CString := ((policyURLs l).filterMap id).getLast?

namespace Private

/-- The inner loop, over all notations of a signature. -/
theorem foldl_copyNota (l : List SigNotation) :
    l.foldl copyNota ([], none) = (namedNotations l, lastPolicyURL l) := by
  induction l using List.reverseRecOn with
  | nil => rfl
  | append_singleton l n ih =>
      rw [List.foldl_concat, ih]
      cases hname : n.name with
      | some name => simp [copyNota, namedNotations, lastPolicyURL, policyURLs, hname]
      | none =>
          cases hvalue : n.value <;>
            simp [copyNota, namedNotations, lastPolicyURL, policyURLs, hname, hvalue]

/-- **The three vectors**: signatures, the lists of their named notations, and their policy
URLs. -/
theorem ofResult_eq (r : GpgmeVerifyResult) :
    (ofResult r).sigs = r.signatures ∧
      (ofResult r).nota = r.signatures.map (fun s => namedNotations s.notations) ∧
      (ofResult r).purls = r.signatures.map (fun s => lastPolicyURL s.notations) := by
  have hfold : ∀ (l : List GpgmeSignature) (p : Private),
      (l.foldl copySignature p).sigs = p.sigs ++ l ∧
        (l.foldl copySignature p).nota = p.nota ++ l.map (fun s => namedNotations s.notations) ∧
        (l.foldl copySignature p).purls =
          p.purls ++ l.map (fun s => lastPolicyURL s.notations) := by
    intro l
    induction l with
    | nil => intro p; simp
    | cons s l ih =>
        intro p
        rw [List.foldl_cons]
        obtain ⟨hsigs, hnota, hpurls⟩ := ih (copySignature p s)
        rw [hsigs, hnota, hpurls]
        simp [copySignature, foldl_copyNota]
  exact hfold r.signatures _

end Private

/-! ## What the objects show -/

variable [GpgmeVerify]
open GpgmeVerify

/-- The character that stands for a validity. -/
def validityLetter : Validity → Char
  | .undefined => 'q'
  | .never => 'n'
  | .marginal => 'm'
  | .full => 'f'
  | .ultimate => 'u'
  | .unknown => '?'

/-- The signature reads the record `s` and no other. -/
structure Reads (sig : Signature) (s : GpgmeSignature) : Prop where
  isNull : sig.isNull = false
  fingerprint : sig.fingerprint = .ok s.fpr
  status : sig.status = .ok ⟨s.status⟩
  creationTime : sig.creationTime = .ok s.timestamp.toInt64
  expirationTime : sig.expirationTime = .ok s.expTimestamp.toInt64
  neverExpires : sig.neverExpires = .ok (decide (s.expTimestamp.toInt64 = 0))
  isWrongKeyUsage : sig.isWrongKeyUsage = .ok s.wrongKeyUsage
  isVerifiedUsingChainModel : sig.isVerifiedUsingChainModel = .ok s.chainModel
  pkaStatus : sig.pkaStatus = .ok s.pkaTrust
  pkaAddress : sig.pkaAddress = .ok s.pkaAddress
  /-- The character is the one for the validity that the signature shows. -/
  validity : ∃ validity, sig.validity = .ok validity ∧
    sig.validityAsString = .ok (validityLetter validity)
  nonValidityReason : sig.nonValidityReason = .ok ⟨s.validityReason⟩
  /-- The summary has the flags that gpgme reported. -/
  summary : ∃ summary, sig.summary = .ok summary ∧
    ∀ f : SummaryFlag, hasFlag summary f.value = hasFlag s.summary (sigsum f)
  /-- So does whatever is read of the record. -/
  field : ∀ {α : Type} (default : α) (select : GpgmeSignature → α),
    sig.field default select = .ok (select s)
  /-- The policy URL is there to be read. -/
  policyURL : ∃ url, sig.policyURL = .ok url

/-- The object shows the named notation `n`. -/
structure Shows (o : Notation) (n : Nota) : Prop where
  isNull : o.isNull = .ok false
  name : o.name = .ok (some n.name)
  value : o.value = .ok n.value
  flags : ∃ flags, o.flags = .ok flags ∧
    ∀ f : NotationFlag, hasFlag flags f.value = hasFlag n.flags (sigNotation f)
  isHumanReadable : o.isHumanReadable = .ok (hasFlag n.flags (sigNotation .humanReadable))
  isCritical : o.isCritical = .ok (hasFlag n.flags (sigNotation .critical))

/-- The object shows no notation. -/
structure ShowsNone (o : Notation) : Prop where
  isNull : o.isNull = .ok true
  name : o.name = .ok none
  value : o.value = .ok none
  flags : o.flags = .ok 0

/-- The signature is null, and nothing is read of it. -/
structure ReadsNone (sig : Signature) : Prop where
  isNull : sig.isNull = true
  field : ∀ {α : Type} (default : α) (select : GpgmeSignature → α),
    sig.field default select = .ok default
  policyURL : sig.policyURL = .ok none
  notations : ∀ l, sig.Notations l ↔ l = []
  notationAt : ∀ j, ShowsNone (sig.notationAt j)

/-- What the objects made of gpgme's result should show. -/
structure CopiesResult (error : Error) (r : GpgmeVerifyResult) : Prop where
  numSignatures : (ofGpgme error (some r)).numSignatures.toNat = r.signatures.length
  /-- The vector of signatures has one for each record. -/
  signatures : ∃ l, (ofGpgme error (some r)).Signatures l ∧ List.Forall₂ Reads l r.signatures
  /-- Each signature reads its own record. -/
  reads : ∀ (i : UInt32) s, r.signatures[i.toNat]? = some s →
    Reads ((ofGpgme error (some r)).signature i) s
  /-- Its notations are the named ones of the record, and each can be had by its index. -/
  notations : ∀ (i : UInt32) s, r.signatures[i.toNat]? = some s →
    ∃ l, ((ofGpgme error (some r)).signature i).Notations l ∧
      List.Forall₂ Shows l (namedNotations s.notations) ∧
      ∀ j : UInt32, match l[j.toNat]? with
        | some o => ((ofGpgme error (some r)).signature i).notationAt j = o
        | none => ShowsNone (((ofGpgme error (some r)).signature i).notationAt j)
  /-- A signature that there is not is null. -/
  outOfRange : ∀ i : UInt32, r.signatures.length ≤ i.toNat →
    ReadsNone ((ofGpgme error (some r)).signature i)

/-! ## Indexing -/

section Indexing
variable {d : Private} {i j : UInt32}

omit [GpgmeVerify] in
theorem index_eq_ok {α : Type} {v : List α} {a : α} (h : v[i.toNat]? = some a) :
    index v i = .ok a := by
  simp [index, h]

omit [GpgmeVerify] in
/-- A signature that there is reads what a vector has for it. -/
theorem element_eq_ok {α β : Type} {vector : Private → List α} {a : α}
    (hi : i.toNat < d.sigs.length) (h : (vector d)[i.toNat]? = some a) (default : β)
    (select : α → β) :
    (Signature.mk (some d) i).element default vector select = .ok (select a) := by
  simp [Signature.element, Signature.isNull, hi, index_eq_ok h, Except.map]

omit [GpgmeVerify] in
/-- A signature that there is not reads nothing. -/
theorem element_eq_default {α β : Type} {vector : Private → List α}
    (hi : d.sigs.length ≤ i.toNat) (default : β) (select : α → β) :
    (Signature.mk (some d) i).element default vector select = .ok default := by
  simp [Signature.element, Signature.isNull, hi]

/-- An object for a notation that there is shows it. -/
theorem shows_ofParent {l : List Nota} {n : Nota} (hl : d.nota[i.toNat]? = some l)
    (hn : l[j.toNat]? = some n) : Shows (.ofParent (some d) i j) n := by
  have hi : i.toNat < d.nota.length := (List.getElem?_eq_some_iff.mp hl).1
  have hj : j.toNat < l.length := (List.getElem?_eq_some_iff.mp hn).1
  have hnull : (Notation.ofParent (some d) i j).isNull = .ok false := by
    simp only [Notation.isNull, Notation.ofParent, index_eq_ok hl]
    rw [if_neg (by omega), Except.map, decide_eq_false (by omega)]
  have hfield : ∀ {α : Type} (default : α) (f : Nota → α) (g : SigNotation → α),
      (Notation.ofParent (some d) i j).field default f g = .ok (f n) := by
    intro α default f g
    simp only [Notation.field, hnull]
    simp [Notation.ofParent, index_eq_ok hl, index_eq_ok hn, bind, Except.bind, pure, Except.pure]
  have hflags : (Notation.ofParent (some d) i j).flags =
      .ok (convertFlags (NotationFlag.all.map fun f => (sigNotation f, f.value)) n.flags) := by
    rw [Notation.flags, hfield]
    rfl
  have hflag : ∀ f : NotationFlag,
      hasFlag (convertFlags (NotationFlag.all.map fun f => (sigNotation f, f.value)) n.flags)
        f.value = hasFlag n.flags (sigNotation f) :=
    fun f => hasFlag_convertFlags f.mem_all f.hasFlag_value
  refine ⟨hnull, hfield .., hfield .., ⟨_, hflags, hflag⟩, ?_, ?_⟩
  · rw [Notation.isHumanReadable, hflags, Except.map, hflag]
  · rw [Notation.isCritical, hflags, Except.map, hflag]

/-- An object for a notation that there is not shows none. -/
theorem showsNone_ofParent
    (h : ∀ l, d.nota[i.toNat]? = some l → l.length ≤ j.toNat) :
    ShowsNone (.ofParent (some d) i j) := by
  have hnull : (Notation.ofParent (some d) i j).isNull = .ok true := by
    simp only [Notation.isNull, Notation.ofParent]
    by_cases hi : d.nota.length ≤ i.toNat
    · rw [if_pos hi]
    · have hl : d.nota[i.toNat]? = some d.nota[i.toNat] := List.getElem?_eq_getElem (by omega)
      rw [if_neg hi, index_eq_ok hl, Except.map, decide_eq_true (h _ hl)]
  have hfield : ∀ {α : Type} (default : α) (f : Nota → α) (g : SigNotation → α),
      (Notation.ofParent (some d) i j).field default f g = .ok default := by
    intro α default f g
    simp only [Notation.field, hnull]
    rfl
  refine ⟨hnull, hfield .., hfield .., ?_⟩
  rw [Notation.flags, hfield]
  simp [Except.map, convertFlags, hasFlag]

end Indexing

/-! ## The objects of a result -/

section Objects
variable {error : Error} {r : GpgmeVerifyResult} {i : UInt32} {s : GpgmeSignature}

omit [GpgmeVerify] in
theorem getElem?_nota (h : r.signatures[i.toNat]? = some s) :
    (Private.ofResult r).nota[i.toNat]? = some (namedNotations s.notations) := by
  simp [(Private.ofResult_eq r).2.1, h]

omit [GpgmeVerify] in
theorem getElem?_purls (h : r.signatures[i.toNat]? = some s) :
    (Private.ofResult r).purls[i.toNat]? = some (lastPolicyURL s.notations) := by
  simp [(Private.ofResult_eq r).2.2, h]

omit [GpgmeVerify] in
theorem lt_length_sigs (h : r.signatures[i.toNat]? = some s) :
    i.toNat < (Private.ofResult r).sigs.length := by
  rw [(Private.ofResult_eq r).1]
  exact (List.getElem?_eq_some_iff.mp h).1

omit [GpgmeVerify] in
/-- The policy URL of a signature is the one that is kept. -/
theorem policyURL_signature (h : r.signatures[i.toNat]? = some s) :
    ((ofGpgme error (some r)).signature i).policyURL = .ok (lastPolicyURL s.notations) :=
  element_eq_ok (lt_length_sigs h) (getElem?_purls h) none id

/-- **A signature that there is** reads its own record. -/
theorem reads_signature (h : r.signatures[i.toNat]? = some s) :
    Reads ((ofGpgme error (some r)).signature i) s := by
  have hsigs : (Private.ofResult r).sigs[i.toNat]? = some s := by
    rw [(Private.ofResult_eq r).1, h]
  have hfield : ∀ {α : Type} (default : α) (select : GpgmeSignature → α),
      ((ofGpgme error (some r)).signature i).field default select = .ok (select s) :=
    fun default select => element_eq_ok (lt_length_sigs h) hsigs default select
  exact {
    isNull := decide_eq_false (not_le.mpr (lt_length_sigs h))
    fingerprint := hfield ..
    status := hfield ..
    creationTime := hfield ..
    expirationTime := hfield ..
    neverExpires := by
      rw [Signature.neverExpires, Signature.expirationTime, hfield]
      rfl
    isWrongKeyUsage := hfield ..
    isVerifiedUsingChainModel := hfield ..
    pkaStatus := hfield ..
    pkaAddress := hfield ..
    validity := by
      refine ⟨_, hfield .., (hfield ..).trans ?_⟩
      cases s.validity <;> rfl
    nonValidityReason := hfield ..
    summary := ⟨_, hfield .., fun f => hasFlag_convertFlags f.mem_all f.hasFlag_value⟩
    field := hfield
    policyURL := ⟨_, policyURL_signature h⟩ }

/-- **The vector of signatures**, if their number fits in 32 bits. -/
theorem signatures_ofGpgme (hfit : r.signatures.length < 2 ^ 32) :
    ∃ l, (ofGpgme error (some r)).Signatures l ∧ List.Forall₂ Reads l r.signatures := by
  have hlen : (Private.ofResult r).sigs.length = r.signatures.length := by
    rw [(Private.ofResult_eq r).1]
  refine ⟨_, collects_iff.mpr ⟨hlen.symm ▸ hfit, rfl⟩, ?_⟩
  have hreads : ∀ (i : UInt32) s, r.signatures[i.toNat]? = some s →
      Reads ((ofGpgme error (some r)).signature i) s := fun _ _ => reads_signature
  rw [hlen]
  exact forall₂_map_range hfit hreads

omit [GpgmeVerify] in
/-- The notations of a signature are returned exactly if their number fits in 32 bits. -/
theorem notations_signature_iff (h : r.signatures[i.toNat]? = some s) {l : List Notation} :
    ((ofGpgme error (some r)).signature i).Notations l ↔
      (namedNotations s.notations).length < 2 ^ 32 ∧
        l = (List.range (namedNotations s.notations).length).map fun j =>
          .ofParent (some (Private.ofResult r)) i (UInt32.ofNat j) := by
  have hi := lt_length_sigs h
  have hnota := index_eq_ok (getElem?_nota h)
  simp only [Signature.Notations, signature, ofGpgme, Option.map_some, not_le.mpr hi, if_false,
    hnota, Except.ok.injEq, exists_eq_left', collects_iff]

/-- **The notations of a signature**, if their number fits in 32 bits. -/
theorem notations_signature (h : r.signatures[i.toNat]? = some s)
    (hfit : (namedNotations s.notations).length < 2 ^ 32) :
    ∃ l, ((ofGpgme error (some r)).signature i).Notations l ∧
      List.Forall₂ Shows l (namedNotations s.notations) ∧
      ∀ j : UInt32, match l[j.toNat]? with
        | some o => ((ofGpgme error (some r)).signature i).notationAt j = o
        | none => ShowsNone (((ofGpgme error (some r)).signature i).notationAt j) := by
  refine ⟨_, (notations_signature_iff h).mpr ⟨hfit, rfl⟩, ?_, ?_⟩
  · exact forall₂_map_range hfit fun j n hn => shows_ofParent (getElem?_nota h) hn
  · intro j
    by_cases hj : j.toNat < (namedNotations s.notations).length
    · simp [hj, signature, ofGpgme, Signature.notationAt]
    · have hnone : ShowsNone (.ofParent (some (Private.ofResult r)) i j) := by
        apply showsNone_ofParent
        intro l hl
        obtain rfl := Option.some.inj ((getElem?_nota h).symm.trans hl)
        omega
      simpa [hj, signature, ofGpgme, Signature.notationAt] using hnone

/-- **A signature that there is not** is null. -/
theorem readsNone_signature (h : r.signatures.length ≤ i.toNat) :
    ReadsNone ((ofGpgme error (some r)).signature i) := by
  have hsigs : (Private.ofResult r).sigs.length ≤ i.toNat := by rwa [(Private.ofResult_eq r).1]
  exact {
    isNull := decide_eq_true hsigs
    field := fun default select => element_eq_default hsigs default select
    policyURL := element_eq_default hsigs none id
    notations := fun l => by simp [signature, ofGpgme, Signature.Notations, hsigs]
    notationAt := fun j => by
      apply showsNone_ofParent
      intro l hl
      have hi : i.toNat < (Private.ofResult r).nota.length := (List.getElem?_eq_some_iff.mp hl).1
      rw [(Private.ofResult_eq r).2.1, List.length_map] at hi
      omega }

end Objects

/-- **The objects show what gpgme reported, exactly if** the number of signatures and the
numbers of named notations of each fit in 32 bits. -/
theorem copiesResult_iff (error : Error) (r : GpgmeVerifyResult) :
    CopiesResult error r ↔ r.signatures.length < 2 ^ 32 ∧
      ∀ s ∈ r.signatures, (namedNotations s.notations).length < 2 ^ 32 := by
  constructor
  · intro h
    have hcount : r.signatures.length < 2 ^ 32 := h.numSignatures ▸ UInt32.toNat_lt _
    refine ⟨hcount, ?_⟩
    intro s hs
    obtain ⟨i, hi, rfl⟩ := List.getElem_of_mem hs
    have hnat : (UInt32.ofNat i).toNat = i := UInt32.toNat_ofNat_of_lt' (hi.trans hcount)
    have hget : r.signatures[(UInt32.ofNat i).toNat]? = some r.signatures[i] := by
      rw [hnat]
      exact List.getElem?_eq_getElem hi
    obtain ⟨l, hl, -⟩ := h.notations (UInt32.ofNat i) _ hget
    exact ((notations_signature_iff hget).mp hl).1
  · rintro ⟨hcount, hfit⟩
    exact {
      numSignatures := by
        simp only [numSignatures, ofGpgme, Option.map_some, (Private.ofResult_eq r).1]
        exact UInt32.toNat_ofNat_of_lt' hcount
      signatures := signatures_ofGpgme hcount
      reads := fun i s h => reads_signature h
      notations := fun i s h =>
        notations_signature h (hfit s (List.mem_of_getElem? h))
      outOfRange := fun i h => readsNone_signature h }

omit [GpgmeVerify] in
/-- A result with `2 ^ 32` signatures: none are counted. -/
theorem not_copiesResult_many :
    letI := GpgmeVerify.documented
    ¬ ∀ (error : Error) (r : GpgmeVerifyResult), CopiesResult error r := by
  let := GpgmeVerify.documented
  intro h
  let s : GpgmeSignature :=
    ⟨3, some (.lit "AB"), 0, [], 1, 0, false, 0, false, .full, 0, 1, 8, none⟩
  have hcount := (h .none ⟨List.replicate (2 ^ 32) s, none⟩).numSignatures
  rw [List.length_replicate] at hcount
  exact absurd hcount (UInt32.toNat_lt _).ne

end Gpgmepp.VerificationResult
