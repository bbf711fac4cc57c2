import Gpgmepp.Features
import Gpgmepp.Key.Accessors
import Gpgmepp.Lib.Run
import Gpgmepp.VerificationResult.PolicyURL

/-!
# The attributes of a context

The functions that set and read the attributes of a context pass them on to gpgme.  On the way,
the flags of a key-list mode and of a notation are translated to those of gpgme, as far as it has
them, and back.  A policy URL is a notation without a name, in one list with those that have one.
A null pointer takes the place of the callback of a provider that is null.

To a program this looks as if the attributes were what they are named after: sets of flags, a list
of notations and a list of policy URLs, of which the first counts.  In any order of calls, what
the functions return is what it returns there: `refinesSettings`.

The functions of gpgme are a parameter, `GpgmeContext`, with their documented behaviour.  What gpgme
says to a new key-list mode or a new notation is an argument of the call.

## Main definitions

* `KeyListMode`, `addToGpgmeKeylistMode`, `convertFromGpgmeKeylistMode` — the key-list modes.
* `GpgmeCtx`, `GpgmeContext` — the attributes of a context of gpgme, and its functions for them.
* `Call`, `step` — the functions of `Context` in any order, as a machine.
* `Settings`, `Settings.step` — what it looks like.
* `view` — how it is represented.
-/

namespace Gpgmepp.Attributes

open Flags StateMachine VerificationResult Walk

/-! ## Flags -/

/-- `enum KeyListMode`. -/
inductive KeyListMode
  | localMode | externMode | signatures | signatureNotations | validate | ephemeral
  deriving DecidableEq

namespace KeyListMode

/-- The order in which they are tested. -/
def all : List KeyListMode :=
  [localMode, externMode, signatures, signatureNotations, ephemeral, validate]

/-- The value of the enumerator. -/
def value : KeyListMode → UInt32
  | localMode => 0x1
  | externMode => 0x2
  | signatures => 0x4
  | signatureNotations => 0x8
  | validate => 0x10
  | ephemeral => 0x20

/-- The value of `GPGME_KEYLIST_MODE_...`. -/
def gpgme : KeyListMode → UInt32
  | localMode => 1
  | externMode => 2
  | signatures => 4
  | signatureNotations => 8
  | ephemeral => 128
  | validate => 256

/-- Whether gpgme was found to have the mode. -/
def there (found : Capability → Bool) : KeyListMode → Bool
  | signatureNotations => found .keylistModeSigNotations
  | ephemeral => found .keylistModeEphemeral
  | localMode | externMode | signatures | validate => true

theorem mem_all (f : KeyListMode) : f ∈ all := by cases f <;> decide

theorem hasFlag_value (f g : KeyListMode) : hasFlag g.value f.value = true ↔ g = f := by
  cases f <;> cases g <;> decide

theorem hasFlag_gpgme (f g : KeyListMode) : hasFlag g.gpgme f.gpgme = true ↔ g = f := by
  cases f <;> cases g <;> decide

end KeyListMode

/-- `add_to_gpgme_keylist_mode_t`. -/
def addToGpgmeKeylistMode (found : Capability → Bool) (oldmode newmodes : UInt32) : UInt32 :=
  addFlags ((KeyListMode.all.filter (KeyListMode.there found)).map fun f => (f.value, f.gpgme))
    oldmode newmodes

/-- `convert_from_gpgme_keylist_mode_t`. -/
def convertFromGpgmeKeylistMode (found : Capability → Bool) (mode : UInt32) : UInt32 :=
  convertFlags ((KeyListMode.all.filter (KeyListMode.there found)).map fun f => (f.gpgme, f.value))
    mode

/-- The flags of notations are different ones. -/
class GpgmeSigNotation extends GpgmeVerify where
  hasFlag_sigNotation : ∀ f g, hasFlag (sigNotation g) (sigNotation f) = true ↔ g = f

/-- gpgme as it is documented, to evaluate instances with. -/
abbrev GpgmeSigNotation.documented : GpgmeSigNotation where
  toGpgmeVerify := .documented
  hasFlag_sigNotation f g := by cases f <;> cases g <;> decide

/-- `add_to_gpgme_sig_notation_flags_t`. -/
def addToGpgmeSigNotationFlags [GpgmeVerify] (oldflags newflags : UInt32) : UInt32 :=
  addFlags (NotationFlag.all.map fun f => (f.value, GpgmeVerify.sigNotation f)) oldflags newflags

/-! ## Functions -/

/-- `Context::DefaultCertificates`, and `GPGME_INCLUDE_CERTS_DEFAULT`. -/
def defaultCertificates : Int32 := -256

/-- The attributes of a context of gpgme.  Of a callback there is whether it is null, and the
pointer that it is given. -/
structure GpgmeCtx where
  armor : Bool
  textmode : Bool
  offline : Bool
  includeCerts : Int32
  keylistMode : UInt32
  progressCb : Bool × Option ℕ
  passphraseCb : Bool × Option ℕ
  sigNotations : List SigNotation

/-- What gpgme makes of a number of certificates. -/
class GpgmeCertificates where
  includeCerts : Int32 → Int32
  /-- The numbers that have a meaning are kept. -/
  includeCerts_eq : ∀ n, n = defaultCertificates ∨ -2 ≤ n → includeCerts n = n

/-- The functions of gpgme for the attributes of a context. -/
class GpgmeContext (Ctx : Type) [GpgmeCertificates] where
  /-- What `gpgme_get_armor`, `gpgme_get_textmode`, `gpgme_get_offline`, `gpgme_get_include_certs`,
  `gpgme_get_keylist_mode`, `gpgme_get_progress_cb`, `gpgme_get_passphrase_cb` and
  `gpgme_sig_notation_get` return.  Each of the other functions changes one of them. -/
  get : Ctx → GpgmeCtx
  setArmor : Ctx → Bool → Ctx
  get_setArmor : ∀ c yes, get (setArmor c yes) = { get c with armor := yes }
  setTextmode : Ctx → Bool → Ctx
  get_setTextmode : ∀ c yes, get (setTextmode c yes) = { get c with textmode := yes }
  setOffline : Ctx → Bool → Ctx
  get_setOffline : ∀ c yes, get (setOffline c yes) = { get c with offline := yes }
  setIncludeCerts : Ctx → Int32 → Ctx
  get_setIncludeCerts : ∀ c n,
    get (setIncludeCerts c n) = { get c with includeCerts := GpgmeCertificates.includeCerts n }
  /-- `gpgme_set_keylist_mode`, which takes the mode or not. -/
  setKeylistMode : Ctx → (mode : UInt32) → (taken : Bool) → Ctx
  get_setKeylistMode : ∀ c mode taken, get (setKeylistMode c mode taken) =
    if taken then { get c with keylistMode := mode } else get c
  setProgressCb : Ctx → Bool × Option ℕ → Ctx
  get_setProgressCb : ∀ c cb, get (setProgressCb c cb) = { get c with progressCb := cb }
  setPassphraseCb : Ctx → Bool × Option ℕ → Ctx
  get_setPassphraseCb : ∀ c cb, get (setPassphraseCb c cb) = { get c with passphraseCb := cb }
  sigNotationClear : Ctx → Ctx
  get_sigNotationClear : ∀ c, get (sigNotationClear c) = { get c with sigNotations := [] }
  /-- `gpgme_sig_notation_add`, which adds a notation or returns an error. -/
  sigNotationAdd : Ctx → SigNotation → (err : Error) → Ctx
  get_sigNotationAdd : ∀ c n err, get (sigNotationAdd c n err) =
    if err.mErr = 0 then { get c with sigNotations := (get c).sigNotations ++ [n] } else get c

/-- gpgme as it is documented, where a number of certificates without a meaning stands for two. -/
abbrev GpgmeCertificates.documented : GpgmeCertificates where
  includeCerts n := if n = defaultCertificates ∨ -2 ≤ n then n else -2
  includeCerts_eq _ hn := if_pos hn

/-- A context that is no more than its attributes, to evaluate instances with. -/
abbrev GpgmeContext.documented [GpgmeCertificates] : GpgmeContext GpgmeCtx where
  get c := c
  setArmor c yes := { c with armor := yes }
  get_setArmor _ _ := rfl
  setTextmode c yes := { c with textmode := yes }
  get_setTextmode _ _ := rfl
  setOffline c yes := { c with offline := yes }
  get_setOffline _ _ := rfl
  setIncludeCerts c n := { c with includeCerts := GpgmeCertificates.includeCerts n }
  get_setIncludeCerts _ _ := rfl
  setKeylistMode c mode taken := if taken then { c with keylistMode := mode } else c
  get_setKeylistMode _ _ _ := rfl
  setProgressCb c cb := { c with progressCb := cb }
  get_setProgressCb _ _ := rfl
  setPassphraseCb c cb := { c with passphraseCb := cb }
  get_setPassphraseCb _ _ := rfl
  sigNotationClear c := { c with sigNotations := [] }
  get_sigNotationClear _ := rfl
  sigNotationAdd c n err :=
    if err.mErr = 0 then { c with sigNotations := c.sigNotations ++ [n] } else c
  get_sigNotationAdd _ _ _ := rfl

/-- The pointers to a provider. -/
abbrev Provider := Option ℕ

section Functions
variable {Ctx : Type} [GpgmeCertificates] [GpgmeContext Ctx] [LibGpgError] [GpgmeVerify]
  (found : Capability → Bool) (ctxOffline : Bool) (ctx : Ctx)

open GpgmeContext (get)

/-- `Context::setOffline`. -/
def setOffline (useOfflineMode : Bool) : Ctx :=
  if ctxOffline then GpgmeContext.setOffline ctx useOfflineMode else ctx

/-- `Context::offline`. -/
def offline : Bool := if ctxOffline then (get ctx).offline else false

/-- `Context::setIncludeCertificates`. -/
def setIncludeCertificates (which : Int32) : Ctx :=
  let which :=
    if which = defaultCertificates then
      if found .includeCertsDefault then defaultCertificates else 1
    else which
  GpgmeContext.setIncludeCerts ctx which

/-- `Context::setKeyListMode`. -/
def setKeyListMode (mode : UInt32) (taken : Bool) : Ctx :=
  GpgmeContext.setKeylistMode ctx (addToGpgmeKeylistMode found 0 mode) taken

/-- `Context::addKeyListMode`. -/
def addKeyListMode (mode : UInt32) (taken : Bool) : Ctx :=
  let cur := (get ctx).keylistMode
  GpgmeContext.setKeylistMode ctx (addToGpgmeKeylistMode found cur mode) taken

/-- `Context::keyListMode`. -/
def keyListMode : UInt32 := convertFromGpgmeKeylistMode found (get ctx).keylistMode

/-- `Context::setProgressProvider`. -/
def setProgressProvider (provider : Provider) : Ctx :=
  GpgmeContext.setProgressCb ctx (provider.isSome, provider)

/-- `Context::setPassphraseProvider`. -/
def setPassphraseProvider (provider : Provider) : Ctx :=
  GpgmeContext.setPassphraseCb ctx (provider.isSome, provider)

/-- `Context::clearSignatureNotations`. -/
def clearSignatureNotations : Ctx :=
  if found .sigNotationClearaddget then GpgmeContext.sigNotationClear ctx else ctx

/-- `Context::addSignatureNotation`. -/
def addSignatureNotation (name value : Option CString) (flags : UInt32) (err : Error) :
    Error × Ctx :=
  if found .sigNotationClearaddget then
    (err, GpgmeContext.sigNotationAdd ctx ⟨name, value, addToGpgmeSigNotationFlags 0 flags⟩ err)
  else (.fromCode .notImplemented, ctx)

/-- `Context::addSignaturePolicyURL`. -/
def addSignaturePolicyURL (url : Option CString) (critical : Bool) (err : Error) : Error × Ctx :=
  if found .sigNotationClearaddget then
    (err, GpgmeContext.sigNotationAdd ctx
      ⟨none, url, if critical then GpgmeVerify.sigNotation .critical else 0⟩ err)
  else (.fromCode .notImplemented, ctx)

/-- `gpgme_sig_notation_get`, if there is such a function. -/
def sigNotationGet : Option (List SigNotation) :=
  if found .sigNotationClearaddget then some (get ctx).sigNotations else none

/-- `Context::signaturePolicyURL`. -/
def signaturePolicyURL : Option CString :=
  match sigNotationGet found ctx with
  | none => none
  | some notations => Context.signaturePolicyURL notations

/-! ## Calls -/

/-- A call of one of the functions, and what gpgme says to it. -/
inductive Call
  | setArmor (useArmor : Bool) | armor
  | setTextMode (useTextMode : Bool) | textMode
  | setOffline (useOfflineMode : Bool) | offline
  | setIncludeCertificates (which : Int32) | includeCertificates
  | setKeyListMode (mode : UInt32) (taken : Bool)
  | addKeyListMode (mode : UInt32) (taken : Bool)
  | keyListMode
  | setProgressProvider (provider : Provider) | progressProvider
  | setPassphraseProvider (provider : Provider) | passphraseProvider
  | clearSignatureNotations
  | addSignatureNotation (name value : Option CString) (flags : UInt32) (err : Error)
  | addSignaturePolicyURL (url : Option CString) (critical : Bool) (err : Error)
  | signaturePolicyURL
  | signatureNotation (idx : UInt32)
  | signatureNotations

/-- What a call returns. -/
inductive Output
  | nothing
  | bool (b : Bool)
  | certificates (n : Int32)
  | modes (word : UInt32)
  | provider (p : Provider)
  | error (e : Error)
  | url (url : Option CString)
  | ofIndex (n : Notation)
  | all (ns : List Notation)

/-- A call that sets something. -/
def done {S : Type} (s : S) : Output × S := (.nothing, s)

/-- One call. -/
def step : Call → Except Empty (Output × Ctx)
  | .setArmor useArmor => .ok (done (GpgmeContext.setArmor ctx useArmor))
  | .armor => .ok (.bool (get ctx).armor, ctx)
  | .setTextMode useTextMode => .ok (done (GpgmeContext.setTextmode ctx useTextMode))
  | .textMode => .ok (.bool (get ctx).textmode, ctx)
  | .setOffline useOfflineMode => .ok (done (setOffline ctxOffline ctx useOfflineMode))
  | .offline => .ok (.bool (offline ctxOffline ctx), ctx)
  | .setIncludeCertificates which => .ok (done (setIncludeCertificates found ctx which))
  | .includeCertificates => .ok (.certificates (get ctx).includeCerts, ctx)
  | .setKeyListMode mode taken => .ok (done (setKeyListMode found ctx mode taken))
  | .addKeyListMode mode taken => .ok (done (addKeyListMode found ctx mode taken))
  | .keyListMode => .ok (.modes (keyListMode found ctx), ctx)
  | .setProgressProvider provider => .ok (done (setProgressProvider ctx provider))
  | .progressProvider => .ok (.provider (get ctx).progressCb.2, ctx)
  | .setPassphraseProvider provider => .ok (done (setPassphraseProvider ctx provider))
  | .passphraseProvider => .ok (.provider (get ctx).passphraseCb.2, ctx)
  | .clearSignatureNotations => .ok (done (clearSignatureNotations found ctx))
  | .addSignatureNotation name value flags err =>
      .ok ((addSignatureNotation found ctx name value flags err).map .error id)
  | .addSignaturePolicyURL url critical err =>
      .ok ((addSignaturePolicyURL found ctx url critical err).map .error id)
  | .signaturePolicyURL => .ok (.url (signaturePolicyURL found ctx), ctx)
  | .signatureNotation idx =>
      .ok (.ofIndex (Context.signatureNotation (sigNotationGet found ctx) idx), ctx)
  | .signatureNotations =>
      .ok (.all (Context.signatureNotations (sigNotationGet found ctx)), ctx)

end Functions

/-! ## What it looks like -/

/-- A notation that was added. -/
structure Added where
  name : CString
  value : Option CString
  flags : NotationFlag → Bool

/-- The attributes that a program sets and reads. -/
structure Settings where
  armor : Bool
  textMode : Bool
  offline : Bool
  certificates : Int32
  modes : KeyListMode → Bool
  progress : Provider
  passphrase : Provider
  notations : List Added
  urls : List (Option CString)

/-- What a program is told. -/
inductive Answer
  | nothing
  | bool (b : Bool)
  | certificates (n : Int32)
  | modes (modes : KeyListMode → Bool)
  | provider (p : Provider)
  | error (e : Error)
  | url (url : Option CString)
  | ofIndex (a : Option Added)
  | all (as : List Added)

namespace Settings
variable (found : Capability → Bool)

/-- Of a notation without a name, the value is a policy URL. -/
def add (a : Settings) (name value : Option CString) (flags : UInt32) : Settings :=
  match name with
  | none => { a with urls := a.urls ++ [value] }
  | some name =>
      { a with notations := a.notations ++ [⟨name, value, fun f => hasFlag flags f.value⟩] }

/-- Something is added, if gpgme can do that and does not mind. -/
def addUnless [LibGpgError] (a : Settings) (err : Error) (added : Settings) : Answer × Settings :=
  if found .sigNotationClearaddget then (.error err, if err.mErr = 0 then added else a)
  else (.error (.fromCode .notImplemented), a)

/-- The key-list modes of a word that there are. -/
def modesOf (mode : UInt32) (f : KeyListMode) : Bool := f.there found && hasFlag mode f.value

/-- One call. -/
def step [GpgmeCertificates] [LibGpgError] (ctxOffline : Bool) (a : Settings) :
    Call → Except Empty (Answer × Settings)
  | .setArmor useArmor => .ok (.nothing, { a with armor := useArmor })
  | .armor => .ok (.bool a.armor, a)
  | .setTextMode useTextMode => .ok (.nothing, { a with textMode := useTextMode })
  | .textMode => .ok (.bool a.textMode, a)
  | .setOffline useOfflineMode => .ok (.nothing, { a with offline := ctxOffline && useOfflineMode })
  | .offline => .ok (.bool a.offline, a)
  | .setIncludeCertificates which =>
      let number := if which = defaultCertificates ∧ ¬ found .includeCertsDefault then 1 else which
      .ok (.nothing, { a with certificates := GpgmeCertificates.includeCerts number })
  | .includeCertificates => .ok (.certificates a.certificates, a)
  | .setKeyListMode mode taken =>
      .ok (.nothing, if taken then { a with modes := modesOf found mode } else a)
  | .addKeyListMode mode taken =>
      .ok (.nothing,
        if taken then { a with modes := fun f => a.modes f || modesOf found mode f } else a)
  | .keyListMode => .ok (.modes a.modes, a)
  | .setProgressProvider provider => .ok (.nothing, { a with progress := provider })
  | .progressProvider => .ok (.provider a.progress, a)
  | .setPassphraseProvider provider => .ok (.nothing, { a with passphrase := provider })
  | .passphraseProvider => .ok (.provider a.passphrase, a)
  | .clearSignatureNotations => .ok (.nothing, { a with notations := [], urls := [] })
  | .addSignatureNotation name value flags err =>
      .ok (addUnless found a err (a.add name value flags))
  | .addSignaturePolicyURL url _ err => .ok (addUnless found a err (a.add none url 0))
  | .signaturePolicyURL => .ok (.url a.urls.head?.join, a)
  | .signatureNotation idx => .ok (.ofIndex a.notations[idx.toNat]?, a)
  | .signatureNotations => .ok (.all a.notations, a)

end Settings

/-- The modes of a word that was passed to gpgme. -/
theorem modes_add (found : Capability → Bool) (old mode : UInt32) (f : KeyListMode) :
    (f.there found && hasFlag (addToGpgmeKeylistMode found old mode) f.gpgme) =
      (f.there found && hasFlag old f.gpgme || Settings.modesOf found mode f) := by
  rw [addToGpgmeKeylistMode, hasFlag_addFlags _ old f.mem_all f.hasFlag_gpgme, Settings.modesOf]
  cases f.there found <;> simp

/-! ## How it is represented -/

section View
variable [GpgmeSigNotation]

/-- What a notation of gpgme stands for, if it has a name. -/
def addedOf (n : SigNotation) : Option Added :=
  n.name.map fun name => ⟨name, n.value, fun f => hasFlag n.flags (GpgmeVerify.sigNotation f)⟩

/-- What a context of gpgme looks like. -/
def view (found : Capability → Bool) (ctxOffline : Bool) (ctx : GpgmeCtx) : Settings where
  armor := ctx.armor
  textMode := ctx.textmode
  offline := ctxOffline && ctx.offline
  certificates := ctx.includeCerts
  modes f := f.there found && hasFlag ctx.keylistMode f.gpgme
  progress := ctx.progressCb.2
  passphrase := ctx.passphraseCb.2
  notations := if found .sigNotationClearaddget then ctx.sigNotations.filterMap addedOf else []
  urls := if found .sigNotationClearaddget then policyURLs ctx.sigNotations else []

/-- The object has the name, the value and the flags of the notation that was added. -/
structure Shows (n : Notation) (a : Added) : Prop where
  isNull : n.isNull = .ok false
  name : n.name = .ok (some a.name)
  value : n.value = .ok a.value
  flags : ∃ word, n.flags = .ok word ∧ ∀ f : NotationFlag, hasFlag word f.value = a.flags f

/-- The answer is what the call returned. -/
def Matches : Answer → Output → Prop
  | .nothing, .nothing => True
  | .bool b, .bool c => b = c
  | .certificates n, .certificates m => n = m
  | .modes modes, .modes word => ∀ f : KeyListMode, hasFlag word f.value = modes f
  | .provider p, .provider q => p = q
  | .error e, .error e' => e = e'
  | .url url, .url url' => url = url'
  | .ofIndex none, .ofIndex n => n.isNull = .ok true
  | .ofIndex (some a), .ofIndex n => Shows n a
  | .all as, .all ns => List.Forall₂ Shows ns as
  | _, _ => False

theorem shows_ofNota {n : SigNotation} {a : Added} (h : addedOf n = some a) :
    Shows (.ofNota (some n)) a := by
  obtain ⟨name, hname, rfl⟩ := Option.map_eq_some_iff.mp h
  refine ⟨rfl, congrArg Except.ok hname, rfl, _, rfl, fun f => ?_⟩
  exact hasFlag_convertFlags f.mem_all f.hasFlag_value

/-- The notations with a name, and what they stand for. -/
theorem forall₂_added (l : List SigNotation) :
    List.Forall₂ (fun n a => addedOf n = some a) (l.filter named) (l.filterMap addedOf) := by
  induction l with
  | nil => exact .nil
  | cons n l ih =>
      cases hname : n.name with
      | none => simpa [named, addedOf, hname] using ih
      | some name =>
          have hadded : addedOf n = some ⟨name, n.value,
              fun f => hasFlag n.flags (GpgmeVerify.sigNotation f)⟩ := by
            rw [addedOf, hname, Option.map_some]
          rw [List.filter_cons_of_pos (by simp [named, hname]), List.filterMap_cons_some hadded]
          exact .cons hadded ih

theorem shows_all (l : List SigNotation) :
    List.Forall₂ Shows (Context.signatureNotations (some l)) (l.filterMap addedOf) := by
  rw [Context.signatureNotations, collect_eq, List.forall₂_map_left_iff]
  exact (forall₂_added l).imp fun n a h => shows_ofNota h

theorem matches_ofIndex (l : List SigNotation) (idx : UInt32) :
    Matches (.ofIndex (l.filterMap addedOf)[idx.toNat]?)
      (.ofIndex (Context.signatureNotation (some l) idx)) := by
  have hall := forall₂_added l
  rw [Context.signatureNotation, findIf_eq]
  cases hn : (l.filter named)[idx.toNat]? with
  | none =>
      have hlength := hall.length_eq
      have hnone : (l.filterMap addedOf)[idx.toNat]? = none := by
        rw [List.getElem?_eq_none_iff] at hn ⊢
        omega
      rw [hnone]
      rfl
  | some n =>
      obtain ⟨hi, rfl⟩ := List.getElem?_eq_some_iff.mp hn
      have hi' : idx.toNat < (l.filterMap addedOf).length := hall.length_eq ▸ hi
      rw [List.getElem?_eq_getElem hi']
      exact shows_ofNota (hall.get hi hi')

/-- The flags of a notation that is added. -/
theorem hasFlag_addToGpgmeSigNotationFlags (flags : UInt32) (f : NotationFlag) :
    hasFlag (addToGpgmeSigNotationFlags 0 flags) (GpgmeVerify.sigNotation f) =
      hasFlag flags f.value := by
  rw [addToGpgmeSigNotationFlags, addFlags_zero]
  exact hasFlag_convertFlags f.mem_all (GpgmeSigNotation.hasFlag_sigNotation f)

/-! ## Each call -/

section Steps
variable {Ctx : Type} [GpgmeCertificates] [GpgmeContext Ctx] (found : Capability → Bool)
  (ctxOffline : Bool) (ctx : Ctx)

open GpgmeContext (get)

theorem view_setKeyListMode (mode : UInt32) (taken : Bool) :
    view found ctxOffline (get (setKeyListMode found ctx mode taken)) =
      if taken then { view found ctxOffline (get ctx) with modes := Settings.modesOf found mode }
      else view found ctxOffline (get ctx) := by
  rw [setKeyListMode, GpgmeContext.get_setKeylistMode]
  cases taken with
  | false => rfl
  | true =>
      have hmodes : (fun f : KeyListMode =>
          f.there found && hasFlag (addToGpgmeKeylistMode found 0 mode) f.gpgme) =
          Settings.modesOf found mode := by
        funext f
        simp [modes_add]
      simp only [view, if_true, hmodes]

theorem view_addKeyListMode (mode : UInt32) (taken : Bool) :
    view found ctxOffline (get (addKeyListMode found ctx mode taken)) =
      if taken then { view found ctxOffline (get ctx) with
        modes := fun f =>
          (view found ctxOffline (get ctx)).modes f || Settings.modesOf found mode f }
      else view found ctxOffline (get ctx) := by
  rw [addKeyListMode, GpgmeContext.get_setKeylistMode]
  cases taken with
  | false => rfl
  | true => simp only [view, if_true, modes_add]

/-- What is read of a key-list mode. -/
theorem matches_keyListMode :
    Matches (.modes (view found ctxOffline (get ctx)).modes) (.modes (keyListMode found ctx)) := by
  intro f
  exact hasFlag_convertFlags_filter _ f.mem_all f.hasFlag_value

/-- A notation that gpgme takes is added to the notations, or to the policy URLs. -/
theorem view_sigNotationAdd (hfound : found .sigNotationClearaddget = true)
    (name value : Option CString) {flags word : UInt32} (err : Error)
    (hflags : name.isSome → ∀ f : NotationFlag,
      hasFlag word (GpgmeVerify.sigNotation f) = hasFlag flags f.value) :
    view found ctxOffline (get (GpgmeContext.sigNotationAdd ctx ⟨name, value, word⟩ err)) =
      if err.mErr = 0 then (view found ctxOffline (get ctx)).add name value flags
      else view found ctxOffline (get ctx) := by
  rw [GpgmeContext.get_sigNotationAdd]
  by_cases herr : err.mErr = 0
  · simp only [if_pos herr]
    cases name with
    | none => simp [view, hfound, Settings.add, addedOf, policyURLs]
    | some name =>
        have hsame : (fun f => hasFlag word (GpgmeVerify.sigNotation f)) =
            fun f : NotationFlag => hasFlag flags f.value := funext (hflags rfl)
        simp [view, hfound, Settings.add, addedOf, policyURLs, hsame]
  · simp only [if_neg herr]

variable [LibGpgError]

/-- What the two functions that add something have in common. -/
theorem exists_add (name value : Option CString) {flags word : UInt32} (err : Error)
    (hflags : name.isSome → ∀ f : NotationFlag,
      hasFlag word (GpgmeVerify.sigNotation f) = hasFlag flags f.value) {r : Error × Ctx}
    (hr : r = if found .sigNotationClearaddget then
        (err, GpgmeContext.sigNotationAdd ctx ⟨name, value, word⟩ err)
      else (.fromCode .notImplemented, ctx)) :
    ∃ out ctx' a, r.map .error id = (out, ctx') ∧
      Settings.addUnless found (view found ctxOffline (get ctx)) err
        ((view found ctxOffline (get ctx)).add name value flags) =
          (a, view found ctxOffline (get ctx')) ∧
      Matches a out := by
  refine ⟨_, _, .error r.1, rfl, ?_, rfl⟩
  by_cases hfound : found .sigNotationClearaddget = true
  · rw [if_pos hfound] at hr
    have hview := view_sigNotationAdd found ctxOffline ctx hfound name value err hflags
    simp only [Settings.addUnless, if_pos hfound, id_eq, hr, hview]
  · rw [if_neg hfound] at hr
    simp only [Settings.addUnless, if_neg hfound, id_eq, hr]

/-- **One call** does what it looks like. -/
theorem view_step (c : Call) :
    ∃ out ctx' a, step found ctxOffline ctx c = .ok (out, ctx') ∧
      Settings.step found ctxOffline (view found ctxOffline (get ctx)) c =
        .ok (a, view found ctxOffline (get ctx')) ∧ Matches a out := by
  cases c with
  | setArmor useArmor =>
      refine ⟨_, _, .nothing, rfl, ?_, trivial⟩
      rw [GpgmeContext.get_setArmor]
      rfl
  | setTextMode useTextMode =>
      refine ⟨_, _, .nothing, rfl, ?_, trivial⟩
      rw [GpgmeContext.get_setTextmode]
      rfl
  | setProgressProvider provider =>
      refine ⟨_, _, .nothing, rfl, ?_, trivial⟩
      rw [setProgressProvider, GpgmeContext.get_setProgressCb]
      rfl
  | setPassphraseProvider provider =>
      refine ⟨_, _, .nothing, rfl, ?_, trivial⟩
      rw [setPassphraseProvider, GpgmeContext.get_setPassphraseCb]
      rfl
  | armor | textMode | includeCertificates | progressProvider | passphraseProvider =>
      exact ⟨_, _, _, rfl, rfl, rfl⟩
  | setOffline useOfflineMode =>
      refine ⟨_, _, .nothing, rfl, ?_, trivial⟩
      cases ctxOffline with
      | false => rfl
      | true =>
          rw [setOffline, if_pos rfl, GpgmeContext.get_setOffline]
          rfl
  | offline =>
      refine ⟨_, _, _, rfl, rfl, ?_⟩
      cases ctxOffline <;> rfl
  | setIncludeCertificates which =>
      refine ⟨_, _, .nothing, rfl, ?_, trivial⟩
      rw [setIncludeCertificates, GpgmeContext.get_setIncludeCerts]
      by_cases hwhich : which = defaultCertificates
      · by_cases hfound : found .includeCertsDefault = true
        · simp [Settings.step, view, hwhich, hfound]
        · simp [Settings.step, view, hwhich, hfound]
      · simp [Settings.step, view, hwhich]
  | setKeyListMode mode taken =>
      refine ⟨_, _, .nothing, rfl, ?_, trivial⟩
      rw [view_setKeyListMode]
      rfl
  | addKeyListMode mode taken =>
      refine ⟨_, _, .nothing, rfl, ?_, trivial⟩
      rw [view_addKeyListMode]
      rfl
  | keyListMode => exact ⟨_, _, _, rfl, rfl, matches_keyListMode found ctxOffline ctx⟩
  | clearSignatureNotations =>
      refine ⟨_, _, .nothing, rfl, ?_, trivial⟩
      by_cases hfound : found .sigNotationClearaddget = true
      · simp [Settings.step, view, clearSignatureNotations, GpgmeContext.get_sigNotationClear,
          hfound, policyURLs]
      · simp [Settings.step, view, clearSignatureNotations, hfound]
  | addSignatureNotation name value flags err =>
      obtain ⟨out, ctx', a, hstep, hsettings, hmatches⟩ := exists_add found ctxOffline ctx name
        value err (fun _ => hasFlag_addToGpgmeSigNotationFlags flags)
        (r := addSignatureNotation found ctx name value flags err) rfl
      exact ⟨out, ctx', a, congrArg Except.ok hstep, congrArg Except.ok hsettings, hmatches⟩
  | addSignaturePolicyURL url critical err =>
      obtain ⟨out, ctx', a, hstep, hsettings, hmatches⟩ := exists_add found ctxOffline ctx none url
        err (by simp) (r := addSignaturePolicyURL found ctx url critical err) rfl
      exact ⟨out, ctx', a, congrArg Except.ok hstep, congrArg Except.ok hsettings, hmatches⟩
  | signaturePolicyURL =>
      refine ⟨_, _, _, rfl, rfl, ?_⟩
      by_cases hfound : found .sigNotationClearaddget = true
      · simp [Matches, view, signaturePolicyURL, sigNotationGet, hfound, Context.signaturePolicyURL,
          firstPolicyURL_eq]
      · simp [Matches, view, signaturePolicyURL, sigNotationGet, hfound]
  | signatureNotation idx =>
      refine ⟨_, _, _, rfl, rfl, ?_⟩
      by_cases hfound : found .sigNotationClearaddget = true
      · simp only [view, sigNotationGet, if_pos hfound]
        exact matches_ofIndex (get ctx).sigNotations idx
      · simp only [view, sigNotationGet, if_neg hfound]
        exact rfl
  | signatureNotations =>
      refine ⟨_, _, _, rfl, rfl, ?_⟩
      by_cases hfound : found .sigNotationClearaddget = true
      · simp only [view, sigNotationGet, if_pos hfound]
        exact shows_all (get ctx).sigNotations
      · simp only [view, sigNotationGet, if_neg hfound]
        exact .nil

/-! ## Runs -/

/-- **The attributes are what they look like**, in any order of calls and whatever gpgme was found
to have: the calls return what the same calls return for sets of flags, a list of notations and a
list of policy URLs. -/
theorem refinesSettings (calls : List Call) :
    ∃ ts ctx' us, Run (step found ctxOffline) ctx ts ctx' ∧
      Run (Settings.step found ctxOffline) (view found ctxOffline (get ctx)) us
        (view found ctxOffline (get ctx')) ∧
      ts.map Transition.input = calls ∧ us.map Transition.input = calls ∧
      List.Forall₂ Matches (us.map Transition.output) (ts.map Transition.output) := by
  induction calls generalizing ctx with
  | nil => exact ⟨[], ctx, [], .nil ctx, .nil _, rfl, rfl, .nil⟩
  | cons c calls ih =>
      obtain ⟨out, ctx₁, a, hstep, hsettings, hmatches⟩ := view_step found ctxOffline ctx c
      obtain ⟨ts, ctx', us, hrun, hrun', hin, hin', hout⟩ := ih ctx₁
      exact ⟨_ :: ts, ctx', _ :: us, .cons hstep hrun, .cons hsettings hrun', by simp [hin],
        by simp [hin'], .cons hmatches hout⟩

end Steps

end View

/-- A number of certificates without a meaning and a policy URL, set and read. -/
theorem refinesSettings_documented :
    letI := LibGpgError.documented
    letI := GpgmeSigNotation.documented
    letI := GpgmeCertificates.documented
    letI : GpgmeContext GpgmeCtx := GpgmeContext.documented
    ∃ ctx : GpgmeCtx, ∃ ts ctx' us, Run (step (fun _ => true) true) ctx ts ctx' ∧
      Run (Settings.step (fun _ => true) true) (view (fun _ => true) true ctx) us
        (view (fun _ => true) true ctx') ∧
      ts.map Transition.input = [.setIncludeCertificates (-7), .includeCertificates,
        .addSignaturePolicyURL (some (.lit "u")) true .none, .signaturePolicyURL] ∧
      us.map Transition.input = ts.map Transition.input ∧
      ts.map Transition.output =
        [.nothing, .certificates (-2), .error .none, .url (some (.lit "u"))] ∧
      List.Forall₂ Matches (us.map Transition.output) (ts.map Transition.output) := by
  let := LibGpgError.documented
  let := GpgmeSigNotation.documented
  let := GpgmeCertificates.documented
  let : GpgmeContext GpgmeCtx := GpgmeContext.documented
  let ctx : GpgmeCtx := ⟨false, false, false, 1, 1, (false, none), (false, none), []⟩
  have hcalls : ∃ ts ctx', Run (step (fun _ => true) true) ctx ts ctx' ∧
      ts.map Transition.input = [.setIncludeCertificates (-7), .includeCertificates,
        .addSignaturePolicyURL (some (.lit "u")) true .none, .signaturePolicyURL] ∧
      ts.map Transition.output =
        [.nothing, .certificates (-2), .error .none, .url (some (.lit "u"))] :=
    ⟨_, _, .cons rfl (.cons rfl (.cons rfl (.cons rfl (.nil _)))), rfl, rfl⟩
  obtain ⟨ts, ctx', hrun, hin, hout⟩ := hcalls
  obtain ⟨ts', ctx'', us, hrun', hsettings, hin', hin'', hmatches⟩ :=
    refinesSettings (fun _ => true) true ctx (ts.map Transition.input)
  obtain ⟨rfl, rfl⟩ := hrun'.eq_of_inputs hrun hin'
  exact ⟨ctx, _, _, us, hrun', hsettings, hin, hin'', hout, hmatches⟩

end Gpgmepp.Attributes
