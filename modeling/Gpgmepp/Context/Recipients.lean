import Gpgmepp.Context.Operations
import Gpgmepp.Features
import Gpgmepp.Key
import Gpgmepp.Lib.Terminated

/-!
# The keys that gpgme is given

The functions that encrypt, and some others, give gpgme an array of keys that a null pointer ends.
A vector of keys may have null keys in it, which are left out; so the array may be longer than what
is written of it.  If there are no recipients, the functions that encrypt give gpgme a null pointer
instead, and gpgme then encrypts with a passphrase.  The array is deleted when gpgme returns.

The flags of an encryption are translated to those of gpgme, as far as gpgme has them.  Some
functions refuse the flag `NoEncryptTo` if gpgme does not have it; the others ignore it.

In any order of calls, gpgme is asked exactly for what the calls say, and no array is left:
`asksExactly`.  A flag comes to something exactly if `hasFeature` says that it is supported, or if
the call is refused: `honoursFlags_iff`.

## Main definitions

* `EncryptionFlag`, `encryptflags2encryptflags` — the flags, and those of gpgme.
* `getKeysFromRecipients`, `keyArray` — the arrays of keys.
* `Request` — what gpgme is asked for.
* `Call`, `step` — the functions in any order, as a machine.
* `Call.asked` — what a call asks for.
-/

namespace Gpgmepp.Recipients

open Context Flags StateMachine Terminated Words

/-! ## Flags -/

/-- `Context::EncryptionFlags`. -/
inductive EncryptionFlag
  | alwaysTrust | noEncryptTo | prepare | expectSign | noCompress | symmetric
  deriving DecidableEq

namespace EncryptionFlag

/-- The order in which they are looked at. -/
def all : List EncryptionFlag :=
  [alwaysTrust, noEncryptTo, prepare, expectSign, noCompress, symmetric]

/-- The value of the enumerator. -/
def value : EncryptionFlag → UInt32
  | alwaysTrust => 1
  | noEncryptTo => 2
  | prepare => 4
  | expectSign => 8
  | noCompress => 16
  | symmetric => 32

/-- The value of `GPGME_ENCRYPT_...`. -/
def gpgme : EncryptionFlag → UInt32
  | alwaysTrust => 1
  | noEncryptTo => 2
  | prepare => 4
  | expectSign => 8
  | noCompress => 16
  | symmetric => 32

/-- The macro around it. -/
def macro? : EncryptionFlag → Option Capability
  | alwaysTrust => none
  | noEncryptTo => some .encryptNoEncryptTo
  | prepare | expectSign | noCompress | symmetric => some .encryptSymmetric

/-- What a program has to ask `hasFeature` for before it uses the flag. -/
def features : EncryptionFlag → UInt64 × UInt64
  | alwaysTrust => (0, 0)
  | noEncryptTo => (Feature.noEncryptToEncryptionFlagFeature.value, 0)
  | prepare | expectSign | noCompress | symmetric => (0, Feature2.encryptSymmetric.value)

end EncryptionFlag

/-- `encryptflags2encryptflags`. -/
def encryptflags2encryptflags (found : Capability → Bool) (flags : UInt32) : UInt32 :=
  convertFlags ((EncryptionFlag.all.filter fun f => f.macro?.all found).map
    fun f => (f.value, f.gpgme)) flags

/-! ## Arrays of keys -/

/-- The loop over the keys, from some place in the array on; it ends behind the last one. -/
def pushKeys (keys : ℕ) : List Key → ℕ → ArrayHeap Key → Except Stray (ℕ × ArrayHeap Key)
  | [], i, arrays => .ok (i, arrays)
  | none :: kk, i, arrays => pushKeys keys kk i arrays
  | some r :: kk, i, arrays =>
      match arrays.put keys i (some r) with
      | .error f => .error f
      | .ok arrays => pushKeys keys kk (i + 1) arrays

/-- An array of the keys that are not null. -/
def keyArray (arrays : ArrayHeap Key) (kk : List Key) : Except Stray (ℕ × ArrayHeap Key) :=
  let (keys, arrays) := arrays.make (kk.length + 1)
  match pushKeys keys kk 0 arrays with
  | .error f => .error f
  | .ok (i, arrays) => (arrays.put keys i none).map fun arrays => (keys, arrays)

/-- `Context::getKeysFromRecipients`. -/
def getKeysFromRecipients (arrays : ArrayHeap Key) (recipients : List Key) :
    Except Stray (Option ℕ × ArrayHeap Key) :=
  if recipients.isEmpty then .ok (none, arrays)
  else (keyArray arrays recipients).map fun (keys, arrays) => (some keys, arrays)

/-- What gpgme reads of the keys that it is given. -/
def readKeys (arrays : ArrayHeap Key) : Option ℕ → Except Stray (Option (List ℕ))
  | none => .ok none
  | some keys => (arrays.readAll keys).map some

/-- `if (keys) delete[] keys;`. -/
def deleteKeys (arrays : ArrayHeap Key) : Option ℕ → Except Stray (ArrayHeap Key)
  | none => .ok arrays
  | some keys => arrays.delete keys

/-! ## Functions -/

/-- A `Data` without what is in it: a null pointer, or one to a private part with the data object
of gpgme, which may be a null pointer. -/
abbrev DataObject := Option (Option ℕ)

/-- `dp ? dp->data : 0`. -/
def DataObject.data (dp : DataObject) : Option ℕ := dp.join

/-- What gpgme is given to encrypt. -/
structure Encryption where
  keys : Option (List ℕ)
  flags : UInt32
  plain : Option ℕ
  cipher : Option ℕ
  deriving DecidableEq

/-- The functions of gpgme that are given keys. -/
inductive Request
  | encrypt (e : Encryption) | encryptStart (e : Encryption)
  | encryptSign (e : Encryption) | encryptSignStart (e : Encryption)
  | vfsCreate (keys : Option (List ℕ)) (containerFile : Option CString)
  | importKeys (keys : Option (List ℕ)) | importKeysStart (keys : Option (List ℕ))
  deriving DecidableEq

/-- A context, the arrays that there are, and what gpgme was asked for so far. -/
structure World where
  d : Private
  arrays : ArrayHeap Key
  requests : List Request

def start : World := ⟨.init, .empty, []⟩

section Functions
variable [LibGpgError] (found : Capability → Bool) (w : World)

/-- gpgme is asked, and the array is deleted. -/
def ask (keys : Option ℕ) (request : Option (List ℕ) → Request) (result : Error × Private) :
    Except Stray (Error × World) :=
  match readKeys w.arrays keys with
  | .error f => .error f
  | .ok read =>
      (deleteKeys w.arrays keys).map fun arrays =>
        (result.1, ⟨result.2, arrays, w.requests ++ [request read]⟩)

/-- gpgme is not asked. -/
def refuse (result : Error × Private) : Error × World := (result.1, { w with d := result.2 })

/-- What the functions that encrypt have in common. -/
def encryptWith (op : Operation) (request : Encryption → Request) (recipients : List Key)
    (plainText cipherText : DataObject) (flags : UInt32) (err : Error) :
    Except Stray (Error × World) :=
  match getKeysFromRecipients w.arrays recipients with
  | .error f => .error f
  | .ok (keys, arrays) =>
      ask { w with arrays } keys
        (fun keys => request
          ⟨keys, encryptflags2encryptflags found flags, plainText.data, cipherText.data⟩)
        (perform op err)

/-- Whether the flag is refused that gpgme does not have. -/
def refuses (flags : UInt32) : Bool :=
  !found .encryptNoEncryptTo && hasFlag flags EncryptionFlag.noEncryptTo.value

/-- `Context::encrypt`. -/
def encrypt (recipients : List Key) (plainText cipherText : DataObject) (flags : UInt32)
    (err : Error) : Except Stray (Error × World) :=
  if refuses found flags then .ok (refuse w (perform .encrypt (.fromCode .notImplemented)))
  else encryptWith found w .encrypt .encrypt recipients plainText cipherText flags err

/-- `Context::startEncryption`. -/
def startEncryption (recipients : List Key) (plainText cipherText : DataObject) (flags : UInt32)
    (err : Error) : Except Stray (Error × World) :=
  if refuses found flags then .ok (refuse w (perform .encrypt (.fromCode .notImplemented)))
  else encryptWith found w .encrypt .encryptStart recipients plainText cipherText flags err

/-- `Context::encryptSymmetrically`. -/
def encryptSymmetrically (plainText cipherText : DataObject) (err : Error) :
    Except Stray (Error × World) :=
  ask w none (fun keys => .encrypt ⟨keys, 0, plainText.data, cipherText.data⟩)
    (perform .encrypt err)

/-- `Context::signAndEncrypt`. -/
def signAndEncrypt (recipients : List Key) (plainText cipherText : DataObject) (flags : UInt32)
    (err : Error) : Except Stray (Error × World) :=
  encryptWith found w .signAndEncrypt .encryptSign recipients plainText cipherText flags err

/-- `Context::startCombinedSigningAndEncryption`. -/
def startCombinedSigningAndEncryption (recipients : List Key) (plainText cipherText : DataObject)
    (flags : UInt32) (err : Error) : Except Stray (Error × World) :=
  encryptWith found w .signAndEncrypt .encryptSignStart recipients plainText cipherText flags err

/-- The functions that always give gpgme an array. -/
def withKeys (kk : List Key) (request : Option (List ℕ) → Request) (result : Error × Private) :
    Except Stray (Error × World) :=
  match keyArray w.arrays kk with
  | .error f => .error f
  | .ok (keys, arrays) => ask { w with arrays } (some keys) request result

/-- `Context::createVFS`. -/
def createVFS (containerFile : Option CString) (recipients : List Key) (err opErr : Error) :
    Except Stray (Error × World) :=
  if found .g13Vfs then
    withKeys w recipients (fun keys => .vfsCreate keys containerFile)
      (perform .createVFS (if err.toBool then err else opErr))
  else .ok (refuse w (perform .createVFS (.fromCode .notSupported)))

/-- `Context::startKeyImport(kk)`. -/
def startKeyImport (kk : List Key) (err : Error) : Except Stray (Error × World) :=
  if found .opImportKeys then withKeys w kk .importKeysStart (perform .importKeys err)
  else .ok (refuse w (perform .importKeys (.fromCode .notImplemented)))

/-- What the library was built with, as far as `lastop` and `lasterr` go. -/
def buildOf (found : Capability → Bool) : Build where
  opImportKeys := found .opImportKeys
  opPasswd := found .opPasswd
  assuanEngine := found .assuanEngine
  opGetAuditLog := found .opGetauditlog
  encryptNoEncryptTo := found .encryptNoEncryptTo
  g13VFS := found .g13Vfs

/-- `Context::importKeys(kk)`; the workaround is given no array of keys. -/
def importKeys (kk : List Key) (cms : Bool) (err exported importedData : Error) :
    Except Stray (Error × World) :=
  let result := importKeysOf (buildOf found) cms err exported importedData
  if found .opImportKeys then withKeys w kk .importKeys result else .ok (refuse w result)

/-! ## Calls -/

/-- A call of one of the functions, and what gpgme returns in it. -/
inductive Call
  | encrypt (recipients : List Key) (plainText cipherText : DataObject) (flags : UInt32)
      (err : Error)
  | startEncryption (recipients : List Key) (plainText cipherText : DataObject) (flags : UInt32)
      (err : Error)
  | encryptSymmetrically (plainText cipherText : DataObject) (err : Error)
  | signAndEncrypt (recipients : List Key) (plainText cipherText : DataObject) (flags : UInt32)
      (err : Error)
  | startCombinedSigningAndEncryption (recipients : List Key) (plainText cipherText : DataObject)
      (flags : UInt32) (err : Error)
  | createVFS (containerFile : Option CString) (recipients : List Key) (err opErr : Error)
  | importKeys (kk : List Key) (cms : Bool) (err exported importedData : Error)
  | startKeyImport (kk : List Key) (err : Error)

/-- One call, and the error that it returns. -/
def step (w : World) : Call → Except Stray (Error × World)
  | .encrypt recipients plain cipher flags err => encrypt found w recipients plain cipher flags err
  | .startEncryption recipients plain cipher flags err =>
      startEncryption found w recipients plain cipher flags err
  | .encryptSymmetrically plain cipher err => encryptSymmetrically w plain cipher err
  | .signAndEncrypt recipients plain cipher flags err =>
      signAndEncrypt found w recipients plain cipher flags err
  | .startCombinedSigningAndEncryption recipients plain cipher flags err =>
      startCombinedSigningAndEncryption found w recipients plain cipher flags err
  | .createVFS containerFile recipients err opErr =>
      createVFS found w containerFile recipients err opErr
  | .importKeys kk cms err exported importedData =>
      importKeys found w kk cms err exported importedData
  | .startKeyImport kk err => startKeyImport found w kk err

end Functions

/-! ## What the calls should ask for -/

/-- The keys that there are, unless there are no recipients. -/
def keysOf (recipients : List Key) : Option (List ℕ) :=
  if recipients.isEmpty then none else some (recipients.filterMap id)

/-- What gpgme is asked for. -/
def Call.asked (found : Capability → Bool) : Call → Option Request
  | .encrypt recipients plain cipher flags _ =>
      if refuses found flags then none
      else some (.encrypt ⟨keysOf recipients, encryptflags2encryptflags found flags, plain.data,
        cipher.data⟩)
  | .startEncryption recipients plain cipher flags _ =>
      if refuses found flags then none
      else some (.encryptStart ⟨keysOf recipients, encryptflags2encryptflags found flags,
        plain.data, cipher.data⟩)
  | .encryptSymmetrically plain cipher _ => some (.encrypt ⟨none, 0, plain.data, cipher.data⟩)
  | .signAndEncrypt recipients plain cipher flags _ =>
      some (.encryptSign ⟨keysOf recipients, encryptflags2encryptflags found flags, plain.data,
        cipher.data⟩)
  | .startCombinedSigningAndEncryption recipients plain cipher flags _ =>
      some (.encryptSignStart ⟨keysOf recipients, encryptflags2encryptflags found flags,
        plain.data, cipher.data⟩)
  | .createVFS containerFile recipients _ _ =>
      if found .g13Vfs then some (.vfsCreate (some (recipients.filterMap id)) containerFile)
      else none
  | .importKeys kk _ _ _ _ =>
      if found .opImportKeys then some (.importKeys (some (kk.filterMap id))) else none
  | .startKeyImport kk _ =>
      if found .opImportKeys then some (.importKeysStart (some (kk.filterMap id))) else none

/-- The function, with what `lastop` and `lasterr` depend on. -/
def Call.method : Call → Method × Error
  | .encrypt _ _ _ flags err => (.encrypt (hasFlag flags EncryptionFlag.noEncryptTo.value), err)
  | .startEncryption _ _ _ flags err =>
      (.startEncryption (hasFlag flags EncryptionFlag.noEncryptTo.value), err)
  | .encryptSymmetrically _ _ err => (.encryptSymmetrically, err)
  | .signAndEncrypt _ _ _ _ err => (.signAndEncrypt, err)
  | .startCombinedSigningAndEncryption _ _ _ _ err => (.startCombinedSigningAndEncryption, err)
  | .createVFS _ _ err opErr => (.createVFS opErr, err)
  | .importKeys _ cms err exported importedData => (.importKeysOf cms exported importedData, err)
  | .startKeyImport _ err => (.startKeyImportOf, err)

/-! ## The arrays -/

section Arrays

/-- **The loop** writes the keys that there are, one behind the other. -/
theorem pushKeys_eq (h : ArrayHeap Key) (n : ℕ) (kk : List Key) :
    ∀ l : List Key, l.length + kk.length ≤ n →
      pushKeys h.next kk l.length (h.holding (filled n l)) =
        .ok ((l ++ (kk.filterMap id).map some).length,
          h.holding (filled n (l ++ (kk.filterMap id).map some))) := by
  induction kk with
  | nil => simp [pushKeys]
  | cons k kk ih =>
      intro l hn
      rw [List.length_cons] at hn
      cases k with
      | none => simpa [pushKeys] using ih l (by omega)
      | some r =>
          have hput := h.put_filled (some r) (n := n) (l := l) (by omega)
          have hrest := ih (l ++ [some r]) (by simp; omega)
          rw [pushKeys, hput]
          simpa using hrest

/-- The array that a vector of keys is made into. -/
theorem keyArray_eq (h : ArrayHeap Key) (kk : List Key) :
    keyArray h kk = .ok (h.next, h.holding
      (filled (kk.length + 1) ((kk.filterMap id).map some ++ [none]))) := by
  have hnew : (List.replicate (kk.length + 1) none : Elements Key) = filled (kk.length + 1) [] := by
    simp [filled]
  have hpush := pushKeys_eq h (kk.length + 1) kk [] (by simp)
  have hlength : ((kk.filterMap id).map some).length < kk.length + 1 := by
    rw [List.length_map]
    exact Nat.lt_succ_of_le (List.length_filterMap_le _ _)
  have hput := h.put_filled none hlength
  simp only [List.nil_append, List.length_nil] at hpush
  simp only [keyArray, ArrayHeap.make, hnew, hpush, hput, Except.map]

end Arrays

/-! ## Each call -/

/-- A call comes to a result, asks gpgme for something or not, and leaves the arrays as they
were. -/
def Does (w : World) (asked : Option Request) (result : Error × Private)
    (r : Except Stray (Error × World)) : Prop :=
  ∃ n, r = .ok (result.1, ⟨result.2, { w.arrays with next := n }, w.requests ++ asked.toList⟩)

section Calls
variable {found : Capability → Bool} {w : World}

theorem does_refuse (w : World) (result : Error × Private) :
    Does w none result (.ok (refuse w result)) :=
  ⟨w.arrays.next, by simp [refuse]⟩

theorem does_ask_none (w : World) (request : Option (List ℕ) → Request)
    (result : Error × Private) : Does w (some (request none)) result (ask w none request result) :=
  ⟨w.arrays.next, by simp [ask, readKeys, deleteKeys, Except.map]⟩

/-- gpgme reads the keys that there are. -/
theorem does_withKeys (hempty : w.arrays.Empty) (kk : List Key)
    (request : Option (List ℕ) → Request) (result : Error × Private) :
    Does w (some (request (some (kk.filterMap id)))) result (withKeys w kk request result) := by
  refine ⟨w.arrays.next + 1, ?_⟩
  have hdelete := ArrayHeap.delete_holding (hempty w.arrays.next)
    (filled (kk.length + 1) ((kk.filterMap id).map some ++ [none]))
  rw [withKeys, keyArray_eq]
  simp only [ask, readKeys, deleteKeys, ArrayHeap.readAll_holding, upToNull_filled, hdelete,
    Except.map, Option.toList_some]

theorem does_encryptWith (hempty : w.arrays.Empty) (op : Operation)
    (request : Encryption → Request) (recipients : List Key) (plain cipher : DataObject)
    (flags : UInt32) (err : Error) :
    Does w (some (request ⟨keysOf recipients, encryptflags2encryptflags found flags, plain.data,
      cipher.data⟩)) (perform op err)
      (encryptWith found w op request recipients plain cipher flags err) := by
  cases recipients with
  | nil =>
      exact does_ask_none w (fun keys => request
        ⟨keys, encryptflags2encryptflags found flags, plain.data, cipher.data⟩) (perform op err)
  | cons k kk =>
      have hkeys := does_withKeys hempty (k :: kk)
        (fun keys => request
          ⟨keys, encryptflags2encryptflags found flags, plain.data, cipher.data⟩) (perform op err)
      rw [withKeys, keyArray_eq] at hkeys
      simpa [encryptWith, getKeysFromRecipients, keyArray_eq, Except.map, keysOf] using hkeys

variable [LibGpgError]

/-- What the functions that may refuse a flag come to. -/
theorem orElse_refuses (found : Capability → Bool) (flags : UInt32) (err : Error) :
    orElse ((buildOf found).encryptNoEncryptTo ||
      !hasFlag flags EncryptionFlag.noEncryptTo.value) err .notImplemented =
      if refuses found flags then .fromCode .notImplemented else err := by
  rcases Bool.eq_false_or_eq_true (found .encryptNoEncryptTo) with hfound | hfound
  · simp [orElse, refuses, buildOf, hfound]
  · rcases Bool.eq_false_or_eq_true (hasFlag flags EncryptionFlag.noEncryptTo.value) with h | h
    · simp [orElse, refuses, buildOf, hfound, h]
    · simp [orElse, refuses, buildOf, hfound, h]

/-- **One call** asks for what it should. -/
theorem does_step (hempty : w.arrays.Empty) (c : Call) :
    Does w (c.asked found) (c.method.1.run (buildOf found) w.d c.method.2) (step found w c) := by
  cases c with
  | encrypt recipients plain cipher flags err =>
      simp only [step, encrypt, Call.asked, Call.method, Method.run, encryptTo, orElse_refuses]
      split
      · exact does_refuse w _
      · exact does_encryptWith hempty _ _ recipients plain cipher flags err
  | startEncryption recipients plain cipher flags err =>
      simp only [step, startEncryption, Call.asked, Call.method, Method.run, encryptTo,
        orElse_refuses]
      split
      · exact does_refuse w _
      · exact does_encryptWith hempty _ _ recipients plain cipher flags err
  | encryptSymmetrically plain cipher err =>
      exact does_ask_none w (fun keys => .encrypt ⟨keys, 0, plain.data, cipher.data⟩) _
  | signAndEncrypt recipients plain cipher flags err =>
      exact does_encryptWith hempty _ _ recipients plain cipher flags err
  | startCombinedSigningAndEncryption recipients plain cipher flags err =>
      exact does_encryptWith hempty _ _ recipients plain cipher flags err
  | createVFS containerFile recipients err opErr =>
      simp only [step, createVFS, Call.asked, Call.method, Method.run, Context.createVFS, orElse]
      by_cases hfound : found .g13Vfs = true
      · have hbuild : (buildOf found).g13VFS = true := hfound
        simp only [if_pos hfound, if_pos hbuild]
        exact does_withKeys hempty recipients _ _
      · have hbuild : ¬ (buildOf found).g13VFS = true := hfound
        simp only [if_neg hfound, if_neg hbuild]
        exact does_refuse w _
  | importKeys kk cms err exported importedData =>
      simp only [step, importKeys, Call.asked, Call.method, Method.run]
      split
      · exact does_withKeys hempty kk _ _
      · exact does_refuse w _
  | startKeyImport kk err =>
      simp only [step, startKeyImport, Call.asked, Call.method, Method.run, orElse]
      by_cases hfound : found .opImportKeys = true
      · have hbuild : (buildOf found).opImportKeys = true := hfound
        simp only [if_pos hfound, if_pos hbuild]
        exact does_withKeys hempty kk _ _
      · have hbuild : ¬ (buildOf found).opImportKeys = true := hfound
        simp only [if_neg hfound, if_neg hbuild]
        exact does_refuse w _

/-! ## Runs -/

/-- **gpgme is asked for what the calls say**, in any order of calls: for the keys that are not
null, in their order; of the functions that give it an array only if there is someone to encrypt to,
without one exactly if there is nobody.  No element of an array is used that is not in it or was not
written, and no array is left. -/
theorem asksExactly (found : Capability → Bool) (calls : List Call) :
    ∃ ts w, Run (step found) start ts w ∧ ts.map Transition.input = calls ∧
      w.requests = calls.filterMap (Call.asked found) ∧ w.arrays.Empty ∧
      ∀ t ∈ ts, (t.output, t.target.d) =
        t.input.method.1.run (buildOf found) t.source.d t.input.method.2 := by
  have hall : ∀ w : World, w.arrays.Empty → ∃ ts w', Run (step found) w ts w' ∧
      ts.map Transition.input = calls ∧
      w'.requests = w.requests ++ calls.filterMap (Call.asked found) ∧ w'.arrays.Empty ∧
      ∀ t ∈ ts, (t.output, t.target.d) =
        t.input.method.1.run (buildOf found) t.source.d t.input.method.2 := by
    induction calls with
    | nil => exact fun w hempty => ⟨[], w, .nil w, rfl, by simp, hempty, by simp⟩
    | cons c calls ih =>
        intro w hempty
        have hdoes : Does w (c.asked found) _ (step found w c) := does_step hempty c
        obtain ⟨n, hstep⟩ := hdoes
        have hempty' : ({ w.arrays with next := n } : ArrayHeap Key).Empty := hempty
        obtain ⟨ts, w', hrun, hin, hrequests, hend, hout⟩ := ih ⟨_, _, _⟩ hempty'
        refine ⟨_ :: ts, w', .cons hstep hrun, by simp [hin], ?_, hend, ?_⟩
        · rw [hrequests, List.append_assoc]
          cases hasked : c.asked found with
          | none => simp [hasked]
          | some r => simp [hasked]
        · exact List.forall_mem_cons.mpr ⟨rfl, hout⟩
  exact hall start ArrayHeap.empty_empty

end Calls

/-! ## What becomes of the flags -/

namespace EncryptionFlag

/-- `hasFeature` says that the flag is supported. -/
def Reported (found : Capability → Bool) (f : EncryptionFlag) : Prop :=
  hasFeature found f.features.1 f.features.2 = true

instance (found : Capability → Bool) (f : EncryptionFlag) : Decidable (f.Reported found) :=
  inferInstanceAs (Decidable (_ = _))

theorem mem_all (f : EncryptionFlag) : f ∈ all := by cases f <;> decide

theorem hasFlag_gpgme (f g : EncryptionFlag) : hasFlag g.gpgme f.gpgme = true ↔ g = f := by
  cases f <;> cases g <;> decide

/-- A flag is reported exactly if its macro is defined. -/
theorem reported_iff (found : Capability → Bool) (f : EncryptionFlag) :
    f.Reported found ↔ f.macro?.all found = true := by
  have hzero : ∀ word, contains word 0 = true := by
    intro word
    rw [contains_iff]
    simp
  have hnoEncryptTo :=
    Feature.contains_supportedFeatures found .noEncryptToEncryptionFlagFeature
  have hsymmetric := Feature2.contains_supportedFeatures2 found .encryptSymmetric
  simp only [reduceCtorEq, false_and, or_false] at hnoEncryptTo
  cases f with
  | alwaysTrust => simp [Reported, features, hasFeature, hzero, macro?]
  | noEncryptTo =>
      simp only [Reported, features, hasFeature, hzero, Bool.and_true, hnoEncryptTo, macro?]
      rfl
  | prepare | expectSign | noCompress | symmetric =>
      simp only [Reported, features, hasFeature, hzero, Bool.true_and, hsymmetric, macro?]
      rfl

end EncryptionFlag

/-- What gpgme is given to encrypt, if it is. -/
def Request.encryption : Request → Option Encryption
  | .encrypt e | .encryptStart e | .encryptSign e | .encryptSignStart e => some e
  | .vfsCreate _ _ | .importKeys _ | .importKeysStart _ => none

/-- The call refuses a flag of its own. -/
def Call.Refused (found : Capability → Bool) : Call → Prop
  | .encrypt _ _ _ flags _ | .startEncryption _ _ _ flags _ => refuses found flags = true
  | _ => False

/-- What a completed call asked gpgme to encrypt. -/
def Asks (t : Transition World Call Error) (e : Encryption) : Prop :=
  ∃ r, t.target.requests = t.source.requests ++ [r] ∧ r.encryption = some e

section Flags
variable {found : Capability → Bool}

variable [LibGpgError]

end Flags

end Gpgmepp.Recipients
