import Gpgmepp.Error
import Gpgmepp.Lib.Flags
import Gpgmepp.Lib.Run

/-!
# The operations of a context

A context remembers which operation was the last one and what error it came to, in two members,
`lastop` and `lasterr`.  The functions that carry an operation out or start one set both.  Some
others set `lasterr` only, and so do the functions that find a started operation complete.  The
functions that hand out a result look at `lastop`, and put `lasterr` into it.

What gpgme returns is an argument of each function.

## Main definitions

* `Operation`, `Context.Private` — the two members.
* `perform`, `note` — the two ways to set them.
* `resultOf` — the functions that hand out results.
* `Method`, `Call`, `step` — the functions of a context in any order, as a machine.
-/

namespace Gpgmepp

open Flags StateMachine

/-- `Context::Private::Operation`. -/
inductive Operation
  | none | encrypt | decrypt | sign | verify | decryptAndVerify | signAndEncrypt
  | importKeys | exportKeys | delete | keyGen | keyList | trustList | edit | cardEdit
  | getAuditLog | assuanTransact | passwd | createVFS | mountVFS
  deriving DecidableEq

/-- The value of the enumerator. -/
def Operation.value : Operation → UInt32
  | none => 0
  | encrypt => 0x001
  | decrypt => 0x002
  | sign => 0x004
  | verify => 0x008
  | decryptAndVerify => 0x00a
  | signAndEncrypt => 0x005
  | importKeys => 0x010
  | exportKeys => 0x020
  | delete => 0x040
  | keyGen => 0x080
  | keyList => 0x100
  | trustList => 0x200
  | edit => 0x400
  | cardEdit => 0x800
  | getAuditLog => 0x1000
  | assuanTransact => 0x2000
  | passwd => 0x4000
  | createVFS => 0x4000
  | mountVFS => 0x8000

/-- What gpgme was found to have when the library was built. -/
structure Build where
  opImportKeys : Bool
  opPasswd : Bool
  assuanEngine : Bool
  opGetAuditLog : Bool
  encryptNoEncryptTo : Bool
  g13VFS : Bool

namespace Context

/-- `Context::Private`, as far as operations go. -/
structure Private where
  lastop : Operation
  lasterr : Error

/-- A new context. -/
def Private.init : Private := ⟨.none, .none⟩

/-- An operation comes to an error. -/
def perform (op : Operation) (err : Error) : Error × Private := (err, ⟨op, err⟩)

/-- Another function comes to an error, which is stored all the same. -/
def note (p : Private) (err : Error) : Error × Private := (err, { p with lasterr := err })

/-! ## Results -/

/-- The functions that hand out a result: its error, unless the last operation was none of the
kind. -/
def resultOf (kind : Operation) (p : Private) : Option Error :=
  if hasFlag p.lastop.value kind.value then some p.lasterr else none

/-- `Context::decryptionResult`. -/
def decryptionResult : Private → Option Error := resultOf .decrypt

/-- `Context::verificationResult`. -/
def verificationResult : Private → Option Error := resultOf .verify

/-- `Context::signingResult`. -/
def signingResult : Private → Option Error := resultOf .sign

/-- `Context::encryptionResult`. -/
def encryptionResult : Private → Option Error := resultOf .encrypt

/-- `Context::importResult`. -/
def importResult : Private → Option Error := resultOf .importKeys

/-- `Context::keyGenerationResult`. -/
def keyGenerationResult : Private → Option Error := resultOf .keyGen

/-- `Context::assuanResult`. -/
def assuanResult : Private → Option Error := resultOf .assuanTransact

/-- `Context::keyListResult`, which does not look at `lastop`. -/
def keyListResult (p : Private) : Error := p.lasterr

/-! ## Operations -/

section Functions
variable [LibGpgError]

/-- What a function comes to that needs something of gpgme. -/
def orElse (available : Bool) (err : Error) (n : ErrName) : Error :=
  if available then err else .fromCode n

/-- `Context::importKeys(kk)`: the import of keys, and instead of it perhaps an export, and then
the import of what was exported. -/
def importKeysOf (b : Build) (cms : Bool) (imported exported importedData : Error) :
    Error × Private :=
  let err := orElse b.opImportKeys imported .notImplemented
  let unsupported := err.code = LibGpgError.number .notImplemented ∨
    err.code = LibGpgError.number .notSupported
  perform .importKeys
    (if unsupported ∧ cms then if exported.mErr ≠ 0 then exported else importedData else err)

/-- `Context::assuanTransact` and `Context::startAssuanTransaction`, with a transaction that may
be null. -/
def assuan (b : Build) (transaction : Bool) (err : Error) : Error × Private :=
  perform .assuanTransact
    (if transaction then orElse b.assuanEngine err .notSupported else .fromCode .invArg)

/-- `Context::encrypt` and `Context::startEncryption`, with or without the flag `NoEncryptTo`. -/
def encryptTo (b : Build) (noEncryptTo : Bool) (err : Error) : Error × Private :=
  perform .encrypt (orElse (b.encryptNoEncryptTo || !noEncryptTo) err .notImplemented)

/-- `Context::createVFS`: the error of the operation counts if gpgme returns none. -/
def createVFS (b : Build) (err opErr : Error) : Error × Private :=
  perform .createVFS (orElse b.g13VFS (if err.toBool then err else opErr) .notSupported)

/-- The functions of a context that set `lasterr`, with what they need to know.  Of the two
functions of one name that take one pattern or several, and of those that make a transaction
first, there is one. -/
inductive Method
  -- operations that are carried out
  | key | nextKey | generateKey | exportPublicKeys | importKeys
  | importKeysOf (cms : Bool) (exported importedData : Error)
  | deleteKey | passwd | edit | cardEdit
  | assuanTransact (transaction : Bool)
  | decrypt | verifyDetachedSignature | verifyOpaqueSignature | decryptAndVerify
  | getAuditLog | sign
  | encrypt (noEncryptTo : Bool)
  | encryptSymmetrically | signAndEncrypt
  | createVFS (opErr : Error)
  | mountVFS
  -- operations that are started
  | startKeyListing | startKeyGeneration | startPublicKeyExport | startKeyImport
  | startKeyImportOf | startKeyDeletion | startPasswd | startEditing | startCardEditing
  | startTrustItemListing
  | startAssuanTransaction (transaction : Bool)
  | startDecryption | startDetachedSignatureVerification | startOpaqueSignatureVerification
  | startCombinedDecryptionAndVerification | startGetAuditLog | startSigning
  | startEncryption (noEncryptTo : Bool)
  | startCombinedSigningAndEncryption
  -- other functions
  | setLocale | endKeyListing | nextTrustItem | endTrustItemListing | addSigningKey

/-- The function, when gpgme returns `err`; the error is the one that it returns, or that of
the result that it returns. -/
def Method.run (b : Build) (p : Private) (err : Error) : Method → Error × Private
  | key | nextKey | startKeyListing => perform .keyList err
  | generateKey | startKeyGeneration => perform .keyGen err
  | exportPublicKeys | startPublicKeyExport => perform .exportKeys err
  | importKeys | startKeyImport => perform .importKeys err
  | importKeysOf cms exported importedData => Context.importKeysOf b cms err exported importedData
  | startKeyImportOf => perform .importKeys (orElse b.opImportKeys err .notImplemented)
  | deleteKey | startKeyDeletion => perform .delete err
  | passwd | startPasswd => perform .passwd (orElse b.opPasswd err .notImplemented)
  | edit | startEditing => perform .edit err
  | cardEdit | startCardEditing => perform .cardEdit err
  | startTrustItemListing => perform .trustList err
  | assuanTransact transaction | startAssuanTransaction transaction => assuan b transaction err
  | decrypt | startDecryption => perform .decrypt err
  | verifyDetachedSignature | verifyOpaqueSignature
  | startDetachedSignatureVerification | startOpaqueSignatureVerification => perform .verify err
  | decryptAndVerify | startCombinedDecryptionAndVerification => perform .decryptAndVerify err
  | getAuditLog | startGetAuditLog =>
      perform .getAuditLog (orElse b.opGetAuditLog err .notImplemented)
  | sign | startSigning => perform .sign err
  | encrypt noEncryptTo | startEncryption noEncryptTo => encryptTo b noEncryptTo err
  | encryptSymmetrically => perform .encrypt err
  | signAndEncrypt | startCombinedSigningAndEncryption => perform .signAndEncrypt err
  | createVFS opErr => Context.createVFS b err opErr
  | mountVFS => perform .mountVFS (orElse b.g13VFS err .notSupported)
  | setLocale | endKeyListing | nextTrustItem | endTrustItemListing | addSigningKey => note p err

/-! ## Calls -/

/-- A call of a function, or the end of a started operation. -/
inductive Call
  | method (m : Method) (err : Error)
  /-- `Context::poll`, when gpgme says that the operation is complete or that it is not. -/
  | poll (complete : Option Error)
  /-- `Context::wait`. -/
  | wait (err : Error)
  /-- `GPGME_EVENT_DONE`, in the event loop. -/
  | operationDone (err : Error)
  /-- A function that uses neither member, or only reads them. -/
  | other

/-- What is stored when a started operation is complete. -/
def complete (p : Private) (err : Error) : Private := { p with lasterr := err }

/-- One call, and the error that it returns. -/
def step (b : Build) (p : Private) : Call → Except Empty (Option Error × Private)
  | .method m err => .ok (some (m.run b p err).1, (m.run b p err).2)
  | .poll none => .ok (none, p)
  | .poll (some err) => .ok (none, complete p err)
  | .wait err => .ok (some err, complete p err)
  | .operationDone err => .ok (none, complete p err)
  | .other => .ok (none, p)

end Functions

end Context

end Gpgmepp
