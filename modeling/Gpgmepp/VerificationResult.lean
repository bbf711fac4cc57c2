import Gpgmepp.CString
import Gpgmepp.Error
import Gpgmepp.Lib.Collect
import Gpgmepp.Lib.Flags

/-!
# Results of verifications

gpgme reports the signatures of a message in a list, and each has a list of notations.  A
notation without a name is a policy URL.  `VerificationResult` copies them to three vectors, of
signatures, of lists of notations and of policy URLs.  A `Signature` and a `Notation` hold the
copy and indices into it.

An index is an `unsigned int`, of 32 bits, and so is the counter of the loops that make vectors
of signatures and notations.  Indexing past a vector is a fault.

## Main definitions

* `GpgmeVerifyResult`, `VerificationResult`, `Signature`, `Notation` — gpgme's lists, and the
  objects made of them.
* `VerificationResult.Private.ofResult` — the copy.
-/

namespace Gpgmepp

open Collect Flags

/-! ## What gpgme reports -/

/-- `struct _gpgme_sig_notation`. -/
structure SigNotation where
  name : Option CString
  value : Option CString
  flags : UInt32

/-- `gpgme_validity_t`. -/
inductive GpgmeValidity
  | unknown | undefined | never | marginal | full | ultimate
  /-- A number that the enumeration does not have. -/
  | other (n : UInt32)

/-- `struct _gpgme_signature`. -/
structure GpgmeSignature where
  summary : UInt32
  fpr : Option CString
  status : UInt32
  notations : List SigNotation
  timestamp : UInt64
  expTimestamp : UInt64
  wrongKeyUsage : Bool
  pkaTrust : BitVec 2
  chainModel : Bool
  validity : GpgmeValidity
  validityReason : UInt32
  pubkeyAlgo : UInt32
  hashAlgo : UInt32
  pkaAddress : Option CString

/-- `struct _gpgme_op_verify_result`. -/
structure GpgmeVerifyResult where
  signatures : List GpgmeSignature
  fileName : Option CString

/-- `Signature::Summary`. -/
inductive SummaryFlag
  | valid | green | red | keyRevoked | keyExpired | sigExpired | keyMissing | crlMissing
  | crlTooOld | badPolicy | sysError
  deriving DecidableEq

namespace SummaryFlag

/-- The flags in the order in which they are tested. -/
def all : List SummaryFlag :=
  [valid, green, red, keyRevoked, keyExpired, sigExpired, keyMissing, crlMissing, crlTooOld,
    badPolicy, sysError]

/-- The value of the enumerator. -/
def value : SummaryFlag → UInt32
  | valid => 0x001
  | green => 0x002
  | red => 0x004
  | keyRevoked => 0x008
  | keyExpired => 0x010
  | sigExpired => 0x020
  | keyMissing => 0x040
  | crlMissing => 0x080
  | crlTooOld => 0x100
  | badPolicy => 0x200
  | sysError => 0x400

theorem mem_all (f : SummaryFlag) : f ∈ all := by cases f <;> simp [all]

/-- No two flags share a bit. -/
theorem hasFlag_value (f g : SummaryFlag) : hasFlag g.value f.value = true ↔ g = f := by
  cases f <;> cases g <;> decide

end SummaryFlag

/-- The flags of `Notation::Flags`. -/
inductive NotationFlag | humanReadable | critical
  deriving DecidableEq

namespace NotationFlag

def all : List NotationFlag := [humanReadable, critical]

/-- The value of the enumerator. -/
def value : NotationFlag → UInt32
  | humanReadable => 1
  | critical => 2

theorem mem_all (f : NotationFlag) : f ∈ all := by cases f <;> simp [all]

theorem hasFlag_value (f g : NotationFlag) : hasFlag g.value f.value = true ↔ g = f := by
  cases f <;> cases g <;> decide

end NotationFlag

/-- The constants of gpgme, `GPGME_SIGSUM_...` and `GPGME_SIG_NOTATION_...`, and its names of
algorithms. -/
class GpgmeVerify where
  sigsum : SummaryFlag → UInt32
  sigNotation : NotationFlag → UInt32
  pubkeyAlgoName : UInt32 → Option CString
  hashAlgoName : UInt32 → Option CString

/-- The constants of gpgme, to evaluate instances with; of the names only one each. -/
abbrev GpgmeVerify.documented : GpgmeVerify where
  sigsum
    | .valid => 0x0001
    | .green => 0x0002
    | .red => 0x0004
    | .keyRevoked => 0x0010
    | .keyExpired => 0x0020
    | .sigExpired => 0x0040
    | .keyMissing => 0x0080
    | .crlMissing => 0x0100
    | .crlTooOld => 0x0200
    | .badPolicy => 0x0400
    | .sysError => 0x0800
  sigNotation
    | .humanReadable => 1
    | .critical => 2
  pubkeyAlgoName n := if n = 1 then some (.lit "RSA") else none
  hashAlgoName n := if n = 8 then some (.lit "SHA256") else none

/-- An index that is not below the size of the vector. -/
inductive OutOfRange | outOfRange

/-- `v[i]`. -/
def index {α : Type} (v : List α) (i : UInt32) : Except OutOfRange α :=
  match v[i.toNat]? with
  | some a => .ok a
  | none => .error .outOfRange

/-! ## The copy -/

/-- `VerificationResult::Private::Nota`. -/
structure Nota where
  name : CString
  value : Option CString
  flags : UInt32

/-- `VerificationResult::Private`. -/
structure VerificationResult.Private where
  sigs : List GpgmeSignature
  nota : List (List Nota)
  purls : List (Option CString)
  fileName : StdString

namespace VerificationResult.Private

/-- The body of the inner loop: what has been copied of the notations of a signature, and its
policy URL. -/
def copyNota (copied : List Nota × Option CString) (is : SigNotation) :
    List Nota × Option CString :=
  match is.name with
  | none =>
      match is.value with
      | some value => (copied.1, some value)
      | none => copied
  | some name => (copied.1 ++ [⟨name, is.value, is.flags⟩], copied.2)

/-- The body of the outer loop. -/
def copySignature (p : Private) (is : GpgmeSignature) : Private :=
  let copied := is.notations.foldl copyNota ([], none)
  { p with
    sigs := p.sigs ++ [is]
    nota := p.nota ++ [copied.1]
    purls := p.purls ++ [copied.2] }

/-- `Private(r)`. -/
def ofResult (r : GpgmeVerifyResult) : Private :=
  r.signatures.foldl copySignature
    ⟨[], [], [], (r.fileName.map CString.bytes).getD []⟩

end VerificationResult.Private

/-! ## The objects -/

open VerificationResult (Private)

/-- `class VerificationResult`. -/
structure VerificationResult where
  error : Error
  d : Option Private

/-- `class Signature`. -/
structure Signature where
  d : Option Private
  idx : UInt32

/-- `class Notation::Private`. -/
structure Notation.Private where
  d : Option VerificationResult.Private
  sidx : UInt32
  nidx : UInt32
  nota : Option SigNotation

/-- `class Notation`. -/
structure Notation where
  d : Option Notation.Private

namespace VerificationResult

/-- The constructors, with what `gpgme_op_verify_result` returns. -/
def ofGpgme (error : Error) (res : Option GpgmeVerifyResult) : VerificationResult :=
  ⟨error, res.map Private.ofResult⟩

/-- `VerificationResult::fileName`. -/
def fileName (r : VerificationResult) : Option CString := r.d.map fun d => .cStr d.fileName

/-- `VerificationResult::numSignatures`. -/
def numSignatures (r : VerificationResult) : UInt32 :=
  match r.d with
  | none => 0
  | some d => UInt32.ofNat d.sigs.length

/-- `VerificationResult::signature`. -/
def signature (r : VerificationResult) (idx : UInt32) : Signature := ⟨r.d, idx⟩

/-- `VerificationResult::signatures` returns the vector. -/
def Signatures (r : VerificationResult) (l : List Signature) : Prop :=
  match r.d with
  | none => l = []
  | some d => Collects d.sigs.length (fun i => ⟨some d, i⟩) l

end VerificationResult

namespace Notation

/-- `Notation(parent, sindex, nindex)`. -/
def ofParent (parent : Option VerificationResult.Private) (sindex nindex : UInt32) : Notation :=
  ⟨some ⟨parent, sindex, nindex, none⟩⟩

/-- `Notation(nota)`. -/
def ofNota (nota : Option SigNotation) : Notation := ⟨some ⟨none, 0, 0, nota⟩⟩

/-- `Notation()`. -/
def null : Notation := ⟨none⟩

/-- `Notation::isNull`. -/
def isNull (n : Notation) : Except OutOfRange Bool :=
  match n.d with
  | none => .ok true
  | some p =>
      match p.d with
      | some d =>
          if d.nota.length ≤ p.sidx.toNat then .ok true
          else (index d.nota p.sidx).map fun l => l.length ≤ p.nidx.toNat
      | none => .ok p.nota.isNone

/-- The functions that return a member of the notation. -/
def field {α : Type} (n : Notation) (default : α) (ofNota : Nota → α)
    (ofSigNotation : SigNotation → α) : Except OutOfRange α := do
  if ← n.isNull then return default
  match n.d with
  | none => return default
  | some p =>
      match p.d with
      | some d => return ofNota (← index (← index d.nota p.sidx) p.nidx)
      | none => return (p.nota.map ofSigNotation).getD default

/-- `Notation::name`. -/
def name (n : Notation) : Except OutOfRange (Option CString) :=
  n.field none (fun nota => some nota.name) SigNotation.name

/-- `Notation::value`. -/
def value (n : Notation) : Except OutOfRange (Option CString) :=
  n.field none Nota.value SigNotation.value

/-- `Notation::flags`. -/
def flags [GpgmeVerify] (n : Notation) : Except OutOfRange UInt32 :=
  (n.field 0 Nota.flags SigNotation.flags).map
    (convertFlags (NotationFlag.all.map fun f => (GpgmeVerify.sigNotation f, f.value)))

/-- `Notation::isHumanReadable`. -/
def isHumanReadable [GpgmeVerify] (n : Notation) : Except OutOfRange Bool :=
  n.flags.map fun flags => hasFlag flags NotationFlag.humanReadable.value

/-- `Notation::isCritical`. -/
def isCritical [GpgmeVerify] (n : Notation) : Except OutOfRange Bool :=
  n.flags.map fun flags => hasFlag flags NotationFlag.critical.value

end Notation

/-- `Signature::Validity`. -/
inductive Validity | unknown | undefined | never | marginal | full | ultimate

namespace Signature

/-- `Signature::isNull`. -/
def isNull (s : Signature) : Bool :=
  match s.d with
  | none => true
  | some d => d.sigs.length ≤ s.idx.toNat

/-- What the functions do that read one of the vectors: nothing if the signature is null. -/
def element {α β : Type} (s : Signature) (default : β) (vector : Private → List α)
    (select : α → β) : Except OutOfRange β :=
  if s.isNull then .ok default
  else
    match s.d with
    | none => .ok default
    | some d => (index (vector d) s.idx).map select

/-- The functions that return a member of the signature. -/
def field {α : Type} (s : Signature) (default : α) (select : GpgmeSignature → α) :
    Except OutOfRange α :=
  s.element default Private.sigs select

/-- `Signature::fingerprint`. -/
def fingerprint (s : Signature) : Except OutOfRange (Option CString) :=
  s.field none GpgmeSignature.fpr

/-- `Signature::status`. -/
def status (s : Signature) : Except OutOfRange Error := s.field .none fun sig => ⟨sig.status⟩

/-- `Signature::creationTime`. -/
def creationTime (s : Signature) : Except OutOfRange Int64 :=
  s.field 0 fun sig => sig.timestamp.toInt64

/-- `Signature::expirationTime`. -/
def expirationTime (s : Signature) : Except OutOfRange Int64 :=
  s.field 0 fun sig => sig.expTimestamp.toInt64

/-- `Signature::neverExpires`. -/
def neverExpires (s : Signature) : Except OutOfRange Bool := s.expirationTime.map (· = 0)

/-- `Signature::isWrongKeyUsage`. -/
def isWrongKeyUsage (s : Signature) : Except OutOfRange Bool :=
  s.field false GpgmeSignature.wrongKeyUsage

/-- `Signature::isVerifiedUsingChainModel`. -/
def isVerifiedUsingChainModel (s : Signature) : Except OutOfRange Bool :=
  s.field false GpgmeSignature.chainModel

/-- `Signature::pkaStatus`, where 0 is `UnknownPKAStatus`. -/
def pkaStatus (s : Signature) : Except OutOfRange (BitVec 2) :=
  s.field 0 GpgmeSignature.pkaTrust

/-- `Signature::pkaAddress`. -/
def pkaAddress (s : Signature) : Except OutOfRange (Option CString) :=
  s.field none GpgmeSignature.pkaAddress

/-- `Signature::validity`. -/
def validity (s : Signature) : Except OutOfRange Validity :=
  s.field .unknown fun sig =>
    match sig.validity with
    | .undefined => .undefined
    | .never => .never
    | .marginal => .marginal
    | .full => .full
    | .ultimate => .ultimate
    | .unknown | .other _ => .unknown

/-- `Signature::validityAsString`. -/
def validityAsString (s : Signature) : Except OutOfRange Char :=
  s.field '?' fun sig =>
    match sig.validity with
    | .undefined => 'q'
    | .never => 'n'
    | .marginal => 'm'
    | .full => 'f'
    | .ultimate => 'u'
    | .unknown | .other _ => '?'

/-- `Signature::nonValidityReason`. -/
def nonValidityReason (s : Signature) : Except OutOfRange Error :=
  s.field .none fun sig => ⟨sig.validityReason⟩

/-- `Signature::publicKeyAlgorithm`. -/
def publicKeyAlgorithm (s : Signature) : Except OutOfRange UInt32 :=
  s.field 0 GpgmeSignature.pubkeyAlgo

/-- `Signature::hashAlgorithm`. -/
def hashAlgorithm (s : Signature) : Except OutOfRange UInt32 :=
  s.field 0 GpgmeSignature.hashAlgo

/-- `Signature::policyURL`. -/
def policyURL (s : Signature) : Except OutOfRange (Option CString) :=
  s.element none Private.purls id

/-- `Signature::notation`. -/
def notationAt (s : Signature) (nidx : UInt32) : Notation := .ofParent s.d s.idx nidx

/-- `Signature::notations` returns the vector. -/
def Notations (s : Signature) (l : List Notation) : Prop :=
  match s.d with
  | none => l = []
  | some d =>
      if d.sigs.length ≤ s.idx.toNat then l = []
      else ∃ nota, index d.nota s.idx = .ok nota ∧
        Collects nota.length (fun i => .ofParent (some d) s.idx i) l

section Gpgme
variable [GpgmeVerify]
open GpgmeVerify

/-- `Signature::summary`. -/
def summary (s : Signature) : Except OutOfRange UInt32 :=
  s.field 0 fun sig => convertFlags (SummaryFlag.all.map fun f => (sigsum f, f.value)) sig.summary

/-- `Signature::publicKeyAlgorithmAsString`. -/
def publicKeyAlgorithmAsString (s : Signature) : Except OutOfRange (Option CString) :=
  s.field none fun sig => pubkeyAlgoName sig.pubkeyAlgo

/-- `Signature::hashAlgorithmAsString`. -/
def hashAlgorithmAsString (s : Signature) : Except OutOfRange (Option CString) :=
  s.field none fun sig => hashAlgoName sig.hashAlgo

end Gpgme

end Signature

end Gpgmepp
