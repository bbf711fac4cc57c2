import Gpgmepp.ResultCopies.Refinement
import Gpgmepp.VerificationResult
import Mathlib.Data.Vector.Defs

/-!
# The classes of results

Each class is an instance of the copies: what gpgme's structure has in it, whether its strings are
tested before they are copied, and the functions, which read one of the strings or the data.  Of a
part that there is not, a function returns a null pointer or a default.

`DecryptionResult::Recipient` is a value without pointers.

## Main definitions

* `Reading` — a function of a class.
* `ImportResult`, `EncryptionResult`, `SigningResult`, `DecryptionResult`, `KeyGenerationResult`,
  `VfsMountResult` — the classes.
* `reads_snapshot` — what the functions return, in every run, and of the classes
  `ImportResult.reads`, `EncryptionResult.reads` and so on.
-/

namespace Gpgmepp.ResultCopies

open Flags StateMachine

variable {κ σ σ' α : Type}

/-- What a function looks up. -/
inductive Lookup
  | string (k : ℕ)
  | data
  | counts

/-- The accessor of an object. -/
def Lookup.op (x : ℕ) : Lookup → Op κ σ σ'
  | string k => .string x k
  | data => .data x
  | counts => .counts x

/-- A function of a class: what it looks up, and what it makes of that. -/
structure Reading (κ σ σ' α : Type) where
  lookup : Lookup
  value : Output κ σ σ' → α

namespace Reading

/-- `d ? d->res.fpr : 0` -/
def ofString (k : ℕ) : Reading κ σ σ' (Option CString) where
  lookup := .string k
  value
    | .string s => s
    | _ => none

/-- `d ? d->res.considered : 0` -/
def ofRes (absent : α) (f : κ → α) : Reading κ σ σ' α where
  lookup := .data
  value
    | .data (some (.res data)) => f data
    | _ => absent

/-- `isNull() ? 0 : d->imports[idx]->result` -/
def ofFirst (absent : α) (f : σ → α) : Reading κ σ σ' α where
  lookup := .data
  value
    | .data (some (.first data)) => f data
    | _ => absent

/-- The same, of the second list. -/
def ofSecond (absent : α) (f : σ' → α) : Reading κ σ σ' α where
  lookup := .data
  value
    | .data (some (.second data)) => f data
    | _ => absent

/-- `d ? d->invalid.size() : 0` -/
def numFirst : Reading κ σ σ' ℕ where
  lookup := .counts
  value
    | .counts first _ => first
    | _ => 0

/-- The call of a function. -/
def eval (r : Reading κ σ σ' α) (tested : Bool) (w : World κ σ σ') (x : ℕ) : Except Failure α :=
  match step tested w (r.lookup.op x) with
  | .error f => .error f
  | .ok (o, _) => .ok (r.value o)

/-- What it returns of a value. -/
def ofSnapshot (r : Reading κ σ σ' α) (v : Snapshot κ σ σ') : α :=
  r.value (Abstract.query v (r.lookup.op 0))

end Reading

section Snapshots
variable (v : Snapshot κ σ σ')

@[simp] theorem Reading.ofSnapshot_ofString (k : ℕ) :
    (Reading.ofString k).ofSnapshot v =
      (v.contents.bind fun c => c.stringsOf v.part).bind fun l => l[k]?.join := rfl

@[simp] theorem Reading.ofSnapshot_ofRes (absent : α) (f : κ → α) :
    (Reading.ofRes absent f).ofSnapshot v =
      match v.contents.bind fun c => c.dataOf v.part with
      | some (.res data) => f data
      | _ => absent := by
  simp only [ofSnapshot, ofRes, Lookup.op, Abstract.query]
  cases v.contents.bind fun c => c.dataOf v.part with
  | none => rfl
  | some d => cases d <;> rfl

@[simp] theorem Reading.ofSnapshot_ofFirst (absent : α) (f : σ → α) :
    (Reading.ofFirst absent f).ofSnapshot v =
      match v.contents.bind fun c => c.dataOf v.part with
      | some (.first data) => f data
      | _ => absent := by
  simp only [ofSnapshot, ofFirst, Lookup.op, Abstract.query]
  cases v.contents.bind fun c => c.dataOf v.part with
  | none => rfl
  | some d => cases d <;> rfl

@[simp] theorem Reading.ofSnapshot_ofSecond (absent : α) (f : σ' → α) :
    (Reading.ofSecond absent f).ofSnapshot v =
      match v.contents.bind fun c => c.dataOf v.part with
      | some (.second data) => f data
      | _ => absent := by
  simp only [ofSnapshot, ofSecond, Lookup.op, Abstract.query]
  cases v.contents.bind fun c => c.dataOf v.part with
  | none => rfl
  | some d => cases d <;> rfl

end Snapshots

/-- In every run, there is `Q` between the objects and their values. -/
def InRuns [Inhabited κ] (tested : Bool) (Q : World κ σ σ' → ℕ → Snapshot κ σ σ' → Prop) : Prop :=
  ∀ (room : ℕ → Bool) (ts : List (Transition (World κ σ σ') (Op κ σ σ') (Output κ σ σ')))
    (w : World κ σ σ'), Run (step tested) (start room) ts w →
    ∃ us a, Run (Abstract.step tested) (.start room) us a ∧
      us.map Transition.input = ts.map Transition.input ∧ ∀ x v, a.get x = some v → Q w x v

/-- **What the functions return is the value of the object**, in every run. -/
theorem reads_snapshot [Inhabited κ] (tested : Bool) :
    InRuns tested fun (w : World κ σ σ') x v =>
      ∀ (α : Type) (r : Reading κ σ σ' α), r.eval tested w x = .ok (r.ofSnapshot v) := by
  intro room ts w h
  obtain ⟨us, a, hrun, hin, -, hsim⟩ := sim_run h
  refine ⟨us, a, hrun, hin, fun x v hv α r => ?_⟩
  have hstep : a.step tested (r.lookup.op x) = .ok (Abstract.query v (r.lookup.op 0), a) := by
    cases r.lookup <;> simp only [Lookup.op, Abstract.step, hv, Abstract.query]
  have halike := sim_step hsim tested (r.lookup.op x)
  rw [hstep] at halike
  generalize hcopy : step tested w (r.lookup.op x) = result at halike
  cases halike with
  | ok => simp only [Reading.eval, hcopy, Reading.ofSnapshot]

theorem InRuns.imp [Inhabited κ] {tested : Bool} {Q Q' : World κ σ σ' → ℕ → Snapshot κ σ σ' → Prop}
    (h : InRuns tested Q) (himp : ∀ w x v, Q w x v → Q' w x v) : InRuns tested Q' := by
  intro room ts w hrun
  obtain ⟨us, a, hvalues, hin, hall⟩ := h room ts w hrun
  exact ⟨us, a, hvalues, hin, fun x v hv => himp w x v (hall x v hv)⟩

/-! ## ImportResult -/

/-- `struct _gpgme_import_status`, but for `fpr`. -/
structure ImportStatus where
  result : Error
  status : UInt32

/-- `struct _gpgme_op_import_result`, but for the list. -/
structure OpImportResult where
  considered : ℤ
  noUserId : ℤ
  imported : ℤ
  importedRsa : ℤ
  unchanged : ℤ
  newUserIds : ℤ
  newSubKeys : ℤ
  newSignatures : ℤ
  newRevocations : ℤ
  secretRead : ℤ
  secretImported : ℤ
  secretUnchanged : ℤ
  notImported : ℤ

/-- `Import::Status`. -/
inductive ImportFlag | newKey | newUserIDs | newSignatures | newSubkeys | containedSecretKey
  deriving DecidableEq

namespace ImportFlag

/-- The flags in the order in which they are tested. -/
def all : List ImportFlag := [newKey, newUserIDs, newSignatures, newSubkeys, containedSecretKey]

/-- The value of the enumerator. -/
def value : ImportFlag → UInt32
  | newKey => 0x1
  | newUserIDs => 0x2
  | newSignatures => 0x4
  | newSubkeys => 0x8
  | containedSecretKey => 0x10

theorem mem_all (f : ImportFlag) : f ∈ all := by cases f <;> simp [all]

theorem hasFlag_value (f g : ImportFlag) : hasFlag g.value f.value = true ↔ g = f := by
  cases f <;> cases g <;> decide

end ImportFlag

namespace ImportResult

/-- gpgme's structure, with the fingerprints of the keys. -/
def contents (res : OpImportResult) (imports : List (ImportStatus × Option CString)) :
    Contents OpImportResult ImportStatus Empty (Option CString) where
  res := ⟨res, []⟩
  first := imports.map fun (is, fpr) => ⟨is, [fpr]⟩
  second := []

/-- `copy->fpr = strdup(is->fpr);` -/
def tested : Bool := false

/-- `d ? d->res.considered : 0`, and so on for the other counts. -/
def count (f : OpImportResult → ℤ) : Reading OpImportResult ImportStatus Empty ℤ := .ofRes 0 f

def numConsidered := count OpImportResult.considered
def numKeysWithoutUserID := count OpImportResult.noUserId
def numImported := count OpImportResult.imported
def numRSAImported := count OpImportResult.importedRsa
def numUnchanged := count OpImportResult.unchanged
def newUserIDs := count OpImportResult.newUserIds
def newSubkeys := count OpImportResult.newSubKeys
def newSignatures := count OpImportResult.newSignatures
def newRevocations := count OpImportResult.newRevocations
def numSecretKeysConsidered := count OpImportResult.secretRead
def numSecretKeysImported := count OpImportResult.secretImported
def numSecretKeysUnchanged := count OpImportResult.secretUnchanged
def notImported := count OpImportResult.notImported

/-- `Import::fingerprint`. -/
def fingerprint : Reading OpImportResult ImportStatus Empty (Option CString) := .ofString 0

/-- `Import::error`. -/
def error : Reading OpImportResult ImportStatus Empty Error := .ofFirst .none ImportStatus.result

/-- `Import::status`, with gpgme's values of the flags, `GPGME_IMPORT_...`. -/
def status (mask : ImportFlag → UInt32) : Reading OpImportResult ImportStatus Empty UInt32 :=
  .ofFirst 0 fun is => convertFlags (ImportFlag.all.map fun f => (mask f, f.value)) is.status

/-- **What the functions return of the import**: the counts of the result, and of each key what
gpgme had of it, with each flag under its own value. -/
theorem reads [Inhabited OpImportResult] :
    InRuns tested fun w x v =>
      ∀ res imports, v.contents = some (contents res imports) →
        (v.part = .res → ∀ f, (count f).eval tested w x = .ok (f res)) ∧
        ∀ idx, v.part = .first idx →
          fingerprint.eval tested w x = .ok (imports[idx]?.map Prod.snd).join ∧
          error.eval tested w x = .ok ((imports[idx]?.map (·.1.result)).getD .none) ∧
          ∀ mask : ImportFlag → UInt32, ∃ word, (status mask).eval tested w x = .ok word ∧
            ∀ f : ImportFlag, hasFlag word f.value =
              imports[idx]?.elim false fun i => hasFlag i.1.status (mask f) := by
  refine (reads_snapshot tested).imp fun w x v hreads => ?_
  intro res imports hc
  refine ⟨fun hpart f => ?_, fun idx hpart => ?_⟩
  · rw [hreads]
    simp [count, hc, contents, Contents.dataOf, hpart]
  refine ⟨?_, ?_, fun mask => ⟨_, hreads _ (status mask), fun f => ?_⟩⟩
  · rw [hreads]
    cases hidx : imports[idx]? <;>
      simp [fingerprint, hc, contents, Contents.stringsOf, hpart, hidx]
  · rw [hreads]
    cases hidx : imports[idx]? <;>
      simp [error, hc, contents, Contents.dataOf, hpart, hidx]
  · have hflag (word : UInt32) : hasFlag (convertFlags
        (ImportFlag.all.map fun f => (mask f, f.value)) word) f.value = hasFlag word (mask f) :=
      hasFlag_convertFlags (ImportFlag.mem_all f) fun g => ImportFlag.hasFlag_value f g
    cases hidx : imports[idx]? <;>
      simp [status, hc, contents, Contents.dataOf, hpart, hidx, hflag]

end ImportResult

/-! ## EncryptionResult -/

/-- `struct _gpgme_invalid_key`, but for `fpr`. -/
structure InvalidKey where
  reason : Error

/-- The entries of a list of invalid keys. -/
def invalidKeys (l : List (InvalidKey × Option CString)) :
    List (Entry InvalidKey (Option CString)) :=
  l.map fun (ik, fpr) => ⟨ik, [fpr]⟩

namespace EncryptionResult

/-- gpgme's structure. -/
def contents (invalidRecipients : List (InvalidKey × Option CString)) :
    Contents Unit InvalidKey Empty (Option CString) where
  res := ⟨(), []⟩
  first := invalidKeys invalidRecipients
  second := []

/-- `if (ik->fpr) copy->fpr = strdup(ik->fpr);` -/
def tested : Bool := true

def numInvalidRecipients : Reading Unit InvalidKey Empty ℕ := .numFirst

/-- `InvalidRecipient::fingerprint`. -/
def fingerprint : Reading Unit InvalidKey Empty (Option CString) := .ofString 0

/-- `InvalidRecipient::reason`. -/
def reason : Reading Unit InvalidKey Empty Error := .ofFirst .none InvalidKey.reason

/-- **What the functions return of the invalid recipients.** -/
theorem reads :
    InRuns tested fun w x v =>
      ∀ invalid, v.contents = some (contents invalid) →
        numInvalidRecipients.eval tested w x = .ok invalid.length ∧
        ∀ idx, v.part = .first idx →
          fingerprint.eval tested w x = .ok (invalid[idx]?.map Prod.snd).join ∧
          reason.eval tested w x = .ok ((invalid[idx]?.map (·.1.reason)).getD .none) := by
  refine (reads_snapshot tested).imp fun w x v hreads => ?_
  intro invalid hc
  refine ⟨?_, fun idx hpart => ?_⟩
  · rw [hreads]
    simp [Reading.ofSnapshot, Abstract.query, Lookup.op, numInvalidRecipients, Reading.numFirst, hc,
      contents, invalidKeys]
  · rw [hreads, hreads]
    cases hidx : invalid[idx]? <;>
      simp [fingerprint, reason, hc, contents, invalidKeys, Contents.stringsOf, Contents.dataOf,
        hpart, hidx]

end EncryptionResult

/-! ## SigningResult -/

/-- `gpgme_sig_mode_t`. -/
inductive SigMode
  | normal | detach | clear
  /-- A number that the enumeration does not have. -/
  | other (n : UInt32)
  deriving DecidableEq

/-- `SignatureMode`. -/
inductive SignatureMode | normalSignatureMode | detached | clearsigned
  deriving DecidableEq

/-- `struct _gpgme_new_signature`, but for `fpr`. -/
structure NewSignature where
  type : SigMode
  pubkeyAlgo : UInt32
  hashAlgo : UInt32
  timestamp : ℤ
  sigClass : UInt32

namespace SigningResult

/-- gpgme's structure. -/
def contents (signatures : List (NewSignature × Option CString))
    (invalidSigners : List (InvalidKey × Option CString)) :
    Contents Unit NewSignature InvalidKey (Option CString) where
  res := ⟨(), []⟩
  first := signatures.map fun (is, fpr) => ⟨is, [fpr]⟩
  second := invalidKeys invalidSigners

/-- `if (is->fpr) copy->fpr = strdup(is->fpr);` -/
def tested : Bool := true

/-- `CreatedSignature::fingerprint` and `InvalidSigningKey::fingerprint`. -/
def fingerprint : Reading Unit NewSignature InvalidKey (Option CString) := .ofString 0

/-- `InvalidSigningKey::reason`. -/
def reason : Reading Unit NewSignature InvalidKey Error := .ofSecond .none InvalidKey.reason

/-- `CreatedSignature::creationTime`. -/
def creationTime : Reading Unit NewSignature InvalidKey ℤ := .ofFirst 0 NewSignature.timestamp

/-- The cases of `CreatedSignature::mode`. -/
def modeOf : SigMode → SignatureMode
  | .detach => .detached
  | .clear => .clearsigned
  | .normal | .other _ => .normalSignatureMode

/-- `CreatedSignature::mode`. -/
def mode : Reading Unit NewSignature InvalidKey SignatureMode :=
  .ofFirst .normalSignatureMode fun is => modeOf is.type

/-- `CreatedSignature::publicKeyAlgorithm`. -/
def publicKeyAlgorithm : Reading Unit NewSignature InvalidKey UInt32 :=
  .ofFirst 0 NewSignature.pubkeyAlgo

/-- `CreatedSignature::publicKeyAlgorithmAsString`. -/
def publicKeyAlgorithmAsString [GpgmeVerify] :
    Reading Unit NewSignature InvalidKey (Option CString) :=
  .ofFirst (GpgmeVerify.pubkeyAlgoName 0) fun is => GpgmeVerify.pubkeyAlgoName is.pubkeyAlgo

/-- `CreatedSignature::hashAlgorithm`. -/
def hashAlgorithm : Reading Unit NewSignature InvalidKey UInt32 := .ofFirst 0 NewSignature.hashAlgo

/-- `CreatedSignature::hashAlgorithmAsString`. -/
def hashAlgorithmAsString [GpgmeVerify] : Reading Unit NewSignature InvalidKey (Option CString) :=
  .ofFirst (GpgmeVerify.hashAlgoName 0) fun is => GpgmeVerify.hashAlgoName is.hashAlgo

/-- `CreatedSignature::signatureClass`. -/
def signatureClass : Reading Unit NewSignature InvalidKey UInt32 := .ofFirst 0 NewSignature.sigClass

/-- **What the functions return of the signatures and of the invalid keys**, each from its own
list. -/
theorem reads :
    InRuns tested fun w x v =>
      ∀ signatures invalid, v.contents = some (contents signatures invalid) →
        (∀ idx, v.part = .first idx →
          fingerprint.eval tested w x = .ok (signatures[idx]?.map Prod.snd).join ∧
          ∀ (α : Type) (absent : α) (f : NewSignature → α),
            (Reading.ofFirst absent f : Reading Unit NewSignature InvalidKey α).eval tested w x =
              .ok ((signatures[idx]?.map fun is => f is.1).getD absent)) ∧
        ∀ idx, v.part = .second idx →
          fingerprint.eval tested w x = .ok (invalid[idx]?.map Prod.snd).join ∧
          reason.eval tested w x = .ok ((invalid[idx]?.map (·.1.reason)).getD .none) := by
  refine (reads_snapshot tested).imp fun w x v hreads => ?_
  intro signatures invalid hc
  refine ⟨fun idx hpart => ⟨?_, fun α absent f => ?_⟩, fun idx hpart => ?_⟩
  · rw [hreads]
    cases hidx : signatures[idx]? <;>
      simp [fingerprint, hc, contents, Contents.stringsOf, hpart, hidx]
  · rw [hreads]
    cases hidx : signatures[idx]? <;>
      simp [hc, contents, Contents.dataOf, hpart, hidx]
  · rw [hreads, hreads]
    cases hidx : invalid[idx]? <;>
      simp [fingerprint, reason, hc, contents, invalidKeys, Contents.stringsOf, Contents.dataOf,
        hpart, hidx]

end SigningResult

/-! ## DecryptionResult -/

/-- `struct _gpgme_recipient`, with the array `_keyid` of sixteen characters and a zero byte. -/
structure Recipient where
  keyid : List.Vector UInt8 17
  pubkeyAlgo : UInt32
  status : Error

namespace Recipient

/-- `d->_keyid` -/
def keyID (r : Recipient) : CString := .cStr r.keyid.toList

/-- `d->_keyid + 8` -/
def shortKeyID (r : Recipient) : CString := .cStr (r.keyid.toList.drop 8)

/-- The short one is the end of the other, if that has eight characters. -/
theorem bytes_shortKeyID {r : Recipient} (h : ∀ c ∈ r.keyid.toList.take 8, c ≠ 0) :
    r.shortKeyID.bytes = r.keyID.bytes.drop 8 := by
  have hlen : (r.keyid.toList.take 8).length = 8 := by simp
  have hall : (r.keyid.toList.take 8).takeWhile (· != 0) = r.keyid.toList.take 8 := by
    simpa [List.takeWhile_eq_self_iff] using h
  simp only [keyID, shortKeyID, CString.cStr]
  conv_rhs => rw [← List.take_append_drop 8 r.keyid.toList]
  rw [List.takeWhile_append, hall, if_pos rfl, List.drop_append_of_le_length hlen.ge,
    List.drop_eq_nil_of_le hlen.le, List.nil_append]

end Recipient

/-- `struct _gpgme_op_decrypt_result`, but for the strings. -/
structure OpDecryptResult where
  wrongKeyUsage : Bool
  recipients : List Recipient

namespace DecryptionResult

/-- gpgme's structure; the name of the file is in it since some version. -/
def contents (res : OpDecryptResult) (unsupportedAlgorithm : Option CString)
    (fileName : Option (Option CString)) :
    Contents OpDecryptResult Empty Empty (Option CString) where
  res := ⟨res, unsupportedAlgorithm :: fileName.toList⟩
  first := []
  second := []

/-- `if (res.file_name) res.file_name = strdup(res.file_name);` -/
def tested : Bool := true

def unsupportedAlgorithm : Reading OpDecryptResult Empty Empty (Option CString) := .ofString 0

def fileName : Reading OpDecryptResult Empty Empty (Option CString) := .ofString 1

def isWrongKeyUsage : Reading OpDecryptResult Empty Empty Bool :=
  .ofRes false OpDecryptResult.wrongKeyUsage

def numRecipients : Reading OpDecryptResult Empty Empty ℕ :=
  .ofRes 0 fun res => res.recipients.length

def recipient (idx : ℕ) : Reading OpDecryptResult Empty Empty (Option Recipient) :=
  .ofRes none fun res => res.recipients[idx]?

def recipients : Reading OpDecryptResult Empty Empty (List Recipient) :=
  .ofRes [] OpDecryptResult.recipients

/-- **What the functions return of the decryption.** -/
theorem reads [Inhabited OpDecryptResult] :
    InRuns tested fun w x v =>
      ∀ res algorithm name, v.contents = some (contents res algorithm name) → v.part = .res →
        unsupportedAlgorithm.eval tested w x = .ok algorithm ∧
          fileName.eval tested w x = .ok name.join ∧
          isWrongKeyUsage.eval tested w x = .ok res.wrongKeyUsage ∧
          numRecipients.eval tested w x = .ok res.recipients.length ∧
          recipients.eval tested w x = .ok res.recipients ∧
          ∀ idx, (recipient idx).eval tested w x = .ok res.recipients[idx]? := by
  refine (reads_snapshot tested).imp fun w x v hreads => ?_
  intro res algorithm name hc hpart
  have hdata (α : Type) (absent : α) (f : OpDecryptResult → α) :
      (Reading.ofRes absent f : Reading OpDecryptResult Empty Empty α).eval tested w x =
        .ok (f res) := by
    rw [hreads]
    simp [hc, contents, Contents.dataOf, hpart]
  refine ⟨?_, ?_, hdata _ _ _, hdata _ _ _, hdata _ _ _, fun idx => hdata _ _ _⟩
  · rw [hreads]
    simp [unsupportedAlgorithm, hc, contents, Contents.stringsOf, hpart]
  · rw [hreads]
    cases name <;>
      simp [fileName, hc, contents, Contents.stringsOf, hpart]

end DecryptionResult

/-! ## KeyGenerationResult -/

/-- `struct _gpgme_op_genkey_result`, but for `fpr`. -/
structure OpGenkeyResult where
  primary : Bool
  sub : Bool

namespace KeyGenerationResult

/-- gpgme's structure. -/
def contents (res : OpGenkeyResult) (fpr : Option CString) :
    Contents OpGenkeyResult Empty Empty (Option CString) where
  res := ⟨res, [fpr]⟩
  first := []
  second := []

/-- `if (res.fpr) res.fpr = strdup(res.fpr);` -/
def tested : Bool := true

def isPrimaryKeyGenerated : Reading OpGenkeyResult Empty Empty Bool :=
  .ofRes false OpGenkeyResult.primary

def isSubkeyGenerated : Reading OpGenkeyResult Empty Empty Bool := .ofRes false OpGenkeyResult.sub

def fingerprint : Reading OpGenkeyResult Empty Empty (Option CString) := .ofString 0

/-- **What the functions return of the key that was generated.** -/
theorem reads [Inhabited OpGenkeyResult] :
    InRuns tested fun w x v =>
      ∀ res fpr, v.contents = some (contents res fpr) → v.part = .res →
        isPrimaryKeyGenerated.eval tested w x = .ok res.primary ∧
          isSubkeyGenerated.eval tested w x = .ok res.sub ∧
          fingerprint.eval tested w x = .ok fpr := by
  refine (reads_snapshot tested).imp fun w x v hreads => ?_
  intro res fpr hc hpart
  rw [hreads, hreads, hreads]
  simp [isPrimaryKeyGenerated, isSubkeyGenerated, fingerprint, hc, contents, Contents.dataOf,
    Contents.stringsOf, hpart]

end KeyGenerationResult

/-! ## VfsMountResult -/

namespace VfsMountResult

/-- gpgme's structure. -/
def contents (mountDir : Option CString) : Contents Unit Empty Empty (Option CString) where
  res := ⟨(), [mountDir]⟩
  first := []
  second := []

/-- `if (r && r->mount_dir) mountDir = strdup(r->mount_dir);` -/
def tested : Bool := true

def mountDir : Reading Unit Empty Empty (Option CString) := .ofString 0

/-- **What the function returns of the mount.** -/
theorem reads :
    InRuns tested fun w x v =>
      ∀ dir, v.contents = some (contents dir) → v.part = .res →
        mountDir.eval tested w x = .ok dir := by
  refine (reads_snapshot tested).imp fun w x v hreads => ?_
  intro dir hc hpart
  rw [hreads]
  simp [mountDir, hc, contents, Contents.stringsOf, hpart]

end VfsMountResult

end Gpgmepp.ResultCopies
