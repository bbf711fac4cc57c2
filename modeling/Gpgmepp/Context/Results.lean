import Gpgmepp.Context.Operations

/-!
# The errors of results

The error of a result should be that of the last operation of its kind: what the operation
returned, or what it came to later if it was started.  A history of calls says which error that
is, in its `ledger`.

The code puts the error of the last call into the result that stored one.  Calls that are no
operations store theirs too, and so do `poll`, `wait` and the event loop when no operation is
outstanding: `resultsPaired_iff`.

## Main definitions

* `Ledger`, `ledger` — the errors of the operations of a history.
* `Paired` — the results have these errors.
* `Harmless` — a call does not put its error in the place of another.
* `resultsPaired_iff` — the results have the right errors exactly if all calls are harmless.
-/

namespace Gpgmepp

open Flags StateMachine

/-- The kinds of operation that an operation is. -/
def Operation.kinds : Operation → List Operation
  | decryptAndVerify => [decrypt, verify]
  | signAndEncrypt => [sign, encrypt]
  | op => [op]

namespace Context

/-- The kinds of operation for which there is a function that hands out the result. -/
def resultKinds : List Operation :=
  [.decrypt, .verify, .sign, .encrypt, .importKeys, .keyGen, .assuanTransact]

/-- The operation that a function carries out or starts. -/
def Method.operation : Method → Option Operation
  | key | nextKey | startKeyListing => some .keyList
  | generateKey | startKeyGeneration => some .keyGen
  | exportPublicKeys | startPublicKeyExport => some .exportKeys
  | importKeys | importKeysOf _ _ _ | startKeyImport | startKeyImportOf => some .importKeys
  | deleteKey | startKeyDeletion => some .delete
  | passwd | startPasswd => some .passwd
  | edit | startEditing => some .edit
  | cardEdit | startCardEditing => some .cardEdit
  | startTrustItemListing => some .trustList
  | assuanTransact _ | startAssuanTransaction _ => some .assuanTransact
  | decrypt | startDecryption => some .decrypt
  | verifyDetachedSignature | verifyOpaqueSignature
  | startDetachedSignatureVerification | startOpaqueSignatureVerification => some .verify
  | decryptAndVerify | startCombinedDecryptionAndVerification => some .decryptAndVerify
  | getAuditLog | startGetAuditLog => some .getAuditLog
  | sign | startSigning => some .sign
  | encrypt _ | encryptSymmetrically | startEncryption _ => some .encrypt
  | signAndEncrypt | startCombinedSigningAndEncryption => some .signAndEncrypt
  | createVFS _ => some .createVFS
  | mountVFS => some .mountVFS
  | setLocale | endKeyListing | nextTrustItem | endTrustItemListing | addSigningKey => none

/-- The function starts an operation, which is complete later. -/
def Method.starts : Method → Bool
  | startKeyListing | startKeyGeneration | startPublicKeyExport | startKeyImport
  | startKeyImportOf | startKeyDeletion | startPasswd | startEditing | startCardEditing
  | startTrustItemListing | startAssuanTransaction _ | startDecryption
  | startDetachedSignatureVerification | startOpaqueSignatureVerification
  | startCombinedDecryptionAndVerification | startGetAuditLog | startSigning
  | startEncryption _ | startCombinedSigningAndEncryption => true
  | _ => false

/-- A completed call. -/
abbrev Called := Transition Private Call (Option Error)

/-! ## What the errors should be -/

/-- The error of the last operation of each kind, and the operation that was started and is
not complete. -/
structure Ledger where
  last : Operation → Option Error
  outstanding : Option Operation

namespace Ledger

/-- No operation yet. -/
def empty : Ledger := ⟨fun _ => none, none⟩

/-- An operation comes to an error, of whatever kinds it is. -/
def settle (l : Ledger) (op : Operation) (err : Error) : Ledger :=
  { l with last := fun kind => if kind ∈ op.kinds then some err else l.last kind }

/-- The operation that was started, if it is outstanding, comes to an error. -/
def complete (l : Ledger) (err : Error) : Ledger :=
  match l.outstanding with
  | some op => { l.settle op err with outstanding := none }
  | none => l

/-- One more call.  An operation ends the one before, and is outstanding itself if it was
started without an error. -/
def record (l : Ledger) (t : Called) : Ledger :=
  match t.input with
  | .method m _ =>
      match m.operation, t.output with
      | some op, some err =>
          { l.settle op err with
            outstanding := if m.starts ∧ err = .none then some op else none }
      | _, _ => l
  | .poll (some err) | .wait err | .operationDone err => l.complete err
  | .poll none | .other => l

end Ledger

/-- The errors of the operations of a history. -/
def ledger (ts : List Called) : Ledger := ts.foldl Ledger.record .empty

theorem ledger_concat (ts : List Called) (t : Called) :
    ledger (ts ++ [t]) = (ledger ts).record t := by
  simp [ledger]

/-- The error of every result that is handed out is that of the last operation of its kind. -/
structure Paired (l : Ledger) (p : Private) : Prop where
  decryption : ∀ err, decryptionResult p = some err → l.last .decrypt = some err
  verification : ∀ err, verificationResult p = some err → l.last .verify = some err
  signing : ∀ err, signingResult p = some err → l.last .sign = some err
  encryption : ∀ err, encryptionResult p = some err → l.last .encrypt = some err
  importing : ∀ err, importResult p = some err → l.last .importKeys = some err
  keyGeneration : ∀ err, keyGenerationResult p = some err → l.last .keyGen = some err
  assuan : ∀ err, assuanResult p = some err → l.last .assuanTransact = some err

/-- The error that a call stores without being an operation or completing one. -/
def Call.stray (l : Ledger) : Call → Option Error
  | .method m err => if m.operation = none then some err else none
  | .poll (some err) | .wait err | .operationDone err =>
      if l.outstanding = none then some err else none
  | .poll none | .other => none

/-- The last operation is of a kind that has a result. -/
def HasResult (p : Private) : Prop := ∃ kind ∈ resultKinds, kind ∈ p.lastop.kinds

/-- While there is a result, a call stores no error without being an operation or completing
one, unless it is the same error as before. -/
def Harmless (pre : List Called) (t : Called) : Prop :=
  ∀ err, t.input.stray (ledger pre) = some err → HasResult t.source → err = t.source.lasterr

/-! ## When they are -/

/-- The test of `lastop` finds the operations of the kind. -/
theorem hasFlag_kind {kind : Operation} (hkind : kind ∈ resultKinds) (op : Operation) :
    hasFlag op.value kind.value = decide (kind ∈ op.kinds) := by
  revert kind
  cases op <;> decide

theorem resultOf_eq_some_iff {kind : Operation} (hkind : kind ∈ resultKinds) {p : Private}
    {err : Error} : resultOf kind p = some err ↔ kind ∈ p.lastop.kinds ∧ p.lasterr = err := by
  simp [resultOf, hasFlag_kind hkind]

/-- All results at once. -/
theorem paired_iff {l : Ledger} {p : Private} :
    Paired l p ↔ ∀ kind ∈ resultKinds, kind ∈ p.lastop.kinds → l.last kind = some p.lasterr := by
  have hone : ∀ kind ∈ resultKinds, (∀ err, resultOf kind p = some err → l.last kind = some err) ↔
      (kind ∈ p.lastop.kinds → l.last kind = some p.lasterr) := by
    intro kind hkind
    simp only [resultOf_eq_some_iff hkind]
    exact ⟨fun h hmem => h _ ⟨hmem, rfl⟩, fun h err ⟨hmem, herr⟩ => herr ▸ h hmem⟩
  constructor
  · intro h kind hkind
    refine (hone kind hkind).mp ?_
    simp only [resultKinds, List.mem_cons, List.not_mem_nil, or_false] at hkind
    rcases hkind with rfl | rfl | rfl | rfl | rfl | rfl | rfl
    exacts [h.decryption, h.verification, h.signing, h.encryption, h.importing, h.keyGeneration,
      h.assuan]
  · intro h
    have hkind := fun kind hkind => (hone kind hkind).mpr (h kind hkind)
    exact ⟨hkind .decrypt (by decide), hkind .verify (by decide), hkind .sign (by decide),
      hkind .encrypt (by decide), hkind .importKeys (by decide), hkind .keyGen (by decide),
      hkind .assuanTransact (by decide)⟩

/-- Right after an operation the results are right. -/
theorem paired_of_last_eq {l l' : Ledger} {op : Operation} {err : Error}
    (h : l'.last = (l.settle op err).last) : Paired l' ⟨op, err⟩ := by
  refine paired_iff.mpr fun kind _ hmem => ?_
  simp only at hmem
  simp [h, Ledger.settle, hmem]

/-- Another error in its place is right only if there is no result, or it is the same. -/
theorem paired_lasterr_iff {l : Ledger} {p : Private} (h : Paired l p) (err : Error) :
    Paired l { p with lasterr := err } ↔ (HasResult p → err = p.lasterr) := by
  rw [paired_iff] at h ⊢
  constructor
  · rintro h' ⟨kind, hkind, hmem⟩
    exact Option.some.inj ((h' kind hkind hmem).symm.trans (h kind hkind hmem))
  · intro heq kind hkind hmem
    show l.last kind = some err
    rw [heq ⟨kind, hkind, hmem⟩]
    exact h kind hkind hmem

/-! ## Runs -/

/-- The members and the ledger belong together. -/
def Kept (pre : List Called) (p : Private) : Prop :=
  Paired (ledger pre) p ∧ ∀ op, (ledger pre).outstanding = some op → p.lastop = op

section Steps
variable {pre : List Called} {t : Called} {err : Error}

/-- A call that stores no error besides the operations is harmless. -/
theorem kept_of_stray_eq_none (hstray : t.input.stray (ledger pre) = none)
    (h : Kept (pre ++ [t]) t.target) :
    (Harmless pre t ↔ Paired (ledger (pre ++ [t])) t.target) ∧
      (Harmless pre t → Kept (pre ++ [t]) t.target) :=
  ⟨iff_of_true (by simp [Harmless, hstray]) h.1, fun _ => h⟩

/-- A call that stores one keeps the results right exactly if it is harmless. -/
theorem kept_of_stray_eq_some (h : Kept pre t.source)
    (hstray : t.input.stray (ledger pre) = some err)
    (hrecord : (ledger pre).record t = ledger pre)
    (htarget : t.target = { t.source with lasterr := err }) :
    (Harmless pre t ↔ Paired (ledger (pre ++ [t])) t.target) ∧
      (Harmless pre t → Kept (pre ++ [t]) t.target) := by
  have hiff : Harmless pre t ↔ Paired (ledger pre) t.target := by
    rw [htarget, paired_lasterr_iff h.1]
    simp [Harmless, hstray]
  simp only [Kept, ledger_concat, hrecord]
  exact ⟨hiff, fun hq => ⟨hiff.mp hq, by simpa only [htarget] using h.2⟩⟩

/-- The end of a started operation, if one is outstanding. -/
theorem kept_complete (h : Kept pre t.source)
    (hstray : t.input.stray (ledger pre) =
      if (ledger pre).outstanding = none then some err else none)
    (hrecord : (ledger pre).record t = (ledger pre).complete err)
    (htarget : t.target = { t.source with lasterr := err }) :
    (Harmless pre t ↔ Paired (ledger (pre ++ [t])) t.target) ∧
      (Harmless pre t → Kept (pre ++ [t]) t.target) := by
  cases hout : (ledger pre).outstanding with
  | none =>
      rw [hout, if_pos rfl] at hstray
      exact kept_of_stray_eq_some h hstray (by rw [hrecord, Ledger.complete, hout]) htarget
  | some op =>
      rw [hout, if_neg (by simp)] at hstray
      have hop : t.target = ⟨op, err⟩ := by rw [htarget, ← h.2 op hout]
      apply kept_of_stray_eq_none hstray
      rw [Kept, ledger_concat, hrecord, Ledger.complete, hout, hop]
      exact ⟨paired_of_last_eq rfl, by simp⟩

end Steps

section Runs
variable [LibGpgError] {b : Build} {p : Private}

/-- An operation sets both members, and the other functions set the error only. -/
theorem run_spec (b : Build) (p : Private) (err : Error) (m : Method) :
    match m.operation with
    | some op => ∃ err', m.run b p err = perform op err'
    | none => m.run b p err = note p err := by
  cases m <;> first | exact ⟨_, rfl⟩ | rfl

/-- **One call** keeps the results right exactly if it is harmless. -/
theorem kept_step {pre : List Called} {m m' : Private} {i : Call} {o : Option Error}
    (h : Kept pre m) (hstep : step b m i = .ok (o, m')) :
    (Harmless pre ⟨m, i, o, m'⟩ ↔ Paired (ledger (pre ++ [⟨m, i, o, m'⟩])) m') ∧
      (Harmless pre ⟨m, i, o, m'⟩ → Kept (pre ++ [⟨m, i, o, m'⟩]) m') := by
  cases i with
  | method f err =>
      obtain ⟨rfl, rfl⟩ := Prod.mk.inj (Except.ok.inj hstep)
      have hrun := run_spec b m err f
      cases hop : f.operation with
      | some op =>
          rw [hop] at hrun
          obtain ⟨err', hrun⟩ := hrun
          rw [hrun]
          apply kept_of_stray_eq_none (by simp [Call.stray, hop])
          simp only [Kept, ledger_concat, Ledger.record, hop, perform]
          refine ⟨paired_of_last_eq rfl, ?_⟩
          intro op' hop'
          split_ifs at hop'
          exact Option.some.inj hop'
      | none =>
          rw [hop] at hrun
          rw [hrun]
          exact kept_of_stray_eq_some h (by simp [Call.stray, hop])
            (by simp [Ledger.record, hop]) rfl
  | poll complete =>
      cases complete with
      | none =>
          obtain ⟨rfl, rfl⟩ := Prod.mk.inj (Except.ok.inj hstep)
          exact kept_of_stray_eq_none rfl (by simpa [Kept, ledger_concat, Ledger.record] using h)
      | some err =>
          obtain ⟨rfl, rfl⟩ := Prod.mk.inj (Except.ok.inj hstep)
          exact kept_complete h rfl rfl rfl
  | wait err =>
      obtain ⟨rfl, rfl⟩ := Prod.mk.inj (Except.ok.inj hstep)
      exact kept_complete h rfl rfl rfl
  | operationDone err =>
      obtain ⟨rfl, rfl⟩ := Prod.mk.inj (Except.ok.inj hstep)
      exact kept_complete h rfl rfl rfl
  | other =>
      obtain ⟨rfl, rfl⟩ := Prod.mk.inj (Except.ok.inj hstep)
      exact kept_of_stray_eq_none rfl (by simpa [Kept, ledger_concat, Ledger.record] using h)

omit [LibGpgError] in
theorem kept_init : Kept [] .init := by
  refine ⟨paired_iff.mpr ?_, by simp [ledger, Ledger.empty]⟩
  decide

/-- **In every run, the results have the errors of the last operations of their kinds after
each call, exactly if every call is harmless.** -/
theorem resultsPaired_iff {ts : List Called} (hrun : Run (step b) .init ts p) :
    Run.ForallCut Harmless ts ↔
      Run.ForallCut (fun pre t => Paired (ledger (pre ++ [t])) t.target) ts :=
  hrun.forallCut_iff Kept _ _ kept_init fun _ _ _ _ _ h hstep => kept_step h hstep

omit [LibGpgError] in
/-- Signing is started, and fails later. -/
theorem resultsPaired_startSigning :
    letI := LibGpgError.documented
    ∃ b ts p, Run (step b) .init ts p ∧
      ts.map Transition.input = [.method .startSigning .none, .operationDone ⟨5⟩] ∧
      signingResult p = some ⟨5⟩ ∧
      (Run.ForallCut Harmless ts ↔
        Run.ForallCut (fun pre t => Paired (ledger (pre ++ [t])) t.target) ts) := by
  let := LibGpgError.documented
  let b : Build := ⟨true, true, true, true, true, true⟩
  have hrun : Run (step b) .init _ _ := .cons (i := .method .startSigning .none) rfl
    (.cons (i := .operationDone ⟨5⟩) rfl (.nil _))
  refine ⟨b, _, _, hrun, rfl, ?_, resultsPaired_iff hrun⟩
  exact (resultOf_eq_some_iff (by decide)).mpr ⟨by decide, rfl⟩

omit [LibGpgError] in
/-- Signing fails, a signing key is added, and the result of signing has no error. -/
theorem not_resultsPaired_addSigningKey :
    letI := LibGpgError.documented
    ¬ ∀ (b : Build) (ts : List Called) (p : Private), Run (step b) .init ts p →
      Run.ForallCut (fun pre t => Paired (ledger (pre ++ [t])) t.target) ts := by
  let := LibGpgError.documented
  intro h
  let b : Build := ⟨true, true, true, true, true, true⟩
  have hrun : Run (step b) .init _ _ := .cons (i := .method .sign ⟨5⟩) rfl
    (.cons (i := .method .addSigningKey .none) rfl (.nil _))
  have hsigning := (h b _ _ hrun [_] _ [] rfl).signing .none
    ((resultOf_eq_some_iff (by decide)).mpr ⟨by decide, rfl⟩)
  exact absurd hsigning (by decide)

end Runs

end Context

end Gpgmepp
