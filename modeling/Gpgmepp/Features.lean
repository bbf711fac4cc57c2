import Gpgmepp.Lib.Words

/-!
# Features

`hasFeature` tells what the library was built with.  Each feature is a constant with a bit of
its own, and each that gpgme does not always have is joined to the words of supported features
if a capability of gpgme was found when the library was built.

But `KeyIsQualifiedFeature` has a second bit, which is that of
`VerificationResultFileNameFeature`.  So a library that was built with the former and without
the latter says that it has both: `reportsExactly_iff`.

## Main definitions

* `Feature`, `Feature2`, `Capability` — the constants, and what is found of gpgme.
* `supportedFeatures`, `supportedFeatures2`, `hasFeature` — those of the sources.
* `Feature.Available`, `ReportsExactly` — what `hasFeature` should say.
-/

namespace Gpgmepp

open Words

/-- The macros `HAVE_GPGME_...` on which the words of supported features depend. -/
inductive Capability
  | includeCertsDefault | ctxGetsetEngineInfo | sigNotationClearaddget | dataSetFileName
  | keylistModeSigNotations | keySigNotations | keyTIsQualified | sigNotationCritical
  | sigNotationFlagsT | sigNotationHumanReadable | subkeyTIsQualified | engineInfoTHomeDir
  | decryptResultTFileName | decryptResultTRecipients | verifyResultTFileName
  | signatureTPkaFields | signatureTAlgorithmFields | getFdptr | opGetauditlog | protocolGpgconf
  | cancelAsync | encryptNoEncryptTo | subkeyTIsCardkey | assuanEngine | keylistModeEphemeral
  | opImportKeys | g13Vfs | opPasswd
  | dataIdentifyGood | encryptSymmetric | dataSetFlag
  deriving DecidableEq

/-- `enum Feature`. -/
inductive Feature
  | validatingKeylistModeFeature | cancelOperationFeature | wrongKeyUsageFeature
  | defaultCertificateInclusionFeature
  | getSetEngineInfoFeature | engineInfoHomeDirFeature | noEncryptToEncryptionFlagFeature
  | ephemeralKeylistModeFeature
  | setDataFileNameFeeature | verificationResultFileNameFeature | decryptionResultFileNameFeature
  | decryptionResultRecipientsFeature
  | auditLogFeature | gpgConfEngineFeature | cancelOperationAsyncFeature | assuanEngineFeature
  | clearAddGetSignatureNotationsFeature | signatureNotationsKeylistModeFeature
  | keySignatureNotationsFeature | signatureNotationsFlagsFeature
  | signatureNotationsCriticalFlagFeature | signatureNotationsHumanReadableFlagFeature
  | cardKeyFeature | importFromKeyserverFeature
  | keyIsQualifiedFeature | subkeyIsQualifiedFeature | signaturePkaFieldsFeature
  | signatureAlgorithmFieldsFeature
  | fdPointerFeature | g13VFSFeature | passwdFeature
  | featureMaxValue
  deriving DecidableEq

/-- `enum Feature2`. -/
inductive Feature2
  | binaryAndFineGrainedIdentify | encryptSymmetric | progressForCallbacks | feature2MaxValue
  deriving DecidableEq

/-- The value of the enumerator. -/
def Feature.value : Feature → UInt64
  | validatingKeylistModeFeature => 0x00000001
  | cancelOperationFeature => 0x00000002
  | wrongKeyUsageFeature => 0x00000004
  | defaultCertificateInclusionFeature => 0x00000008
  | getSetEngineInfoFeature => 0x00000010
  | engineInfoHomeDirFeature => 0x00000020
  | noEncryptToEncryptionFlagFeature => 0x00000040
  | ephemeralKeylistModeFeature => 0x00000080
  | setDataFileNameFeeature => 0x00000100
  | verificationResultFileNameFeature => 0x00000200
  | decryptionResultFileNameFeature => 0x00000400
  | decryptionResultRecipientsFeature => 0x00000800
  | auditLogFeature => 0x00001000
  | gpgConfEngineFeature => 0x00002000
  | cancelOperationAsyncFeature => 0x00004000
  | assuanEngineFeature => 0x00008000
  | clearAddGetSignatureNotationsFeature => 0x00010000
  | signatureNotationsKeylistModeFeature => 0x00020000
  | keySignatureNotationsFeature => 0x00040000
  | signatureNotationsFlagsFeature => 0x00080000
  | signatureNotationsCriticalFlagFeature => 0x00100000
  | signatureNotationsHumanReadableFlagFeature => 0x00200000
  | cardKeyFeature => 0x00400000
  | importFromKeyserverFeature => 0x00800000
  | keyIsQualifiedFeature => 0x01000200
  | subkeyIsQualifiedFeature => 0x02000000
  | signaturePkaFieldsFeature => 0x04000000
  | signatureAlgorithmFieldsFeature => 0x08000000
  | fdPointerFeature => 0x10000000
  | g13VFSFeature => 0x20000000
  | passwdFeature => 0x40000000
  | featureMaxValue => 0x80000000

/-- The value of the enumerator. -/
def Feature2.value : Feature2 → UInt64
  | binaryAndFineGrainedIdentify => 0x00000001
  | encryptSymmetric => 0x00000002
  | progressForCallbacks => 0x00000004
  | feature2MaxValue => 0x80000000

/-! ## The words of supported features -/

/-- The features that are joined, and the macro around each; some have none. -/
def joinedFeatures : List (Option Capability × Feature) :=
  [(none, .validatingKeylistModeFeature),
    (none, .cancelOperationFeature),
    (none, .wrongKeyUsageFeature),
    (some .includeCertsDefault, .defaultCertificateInclusionFeature),
    (some .ctxGetsetEngineInfo, .getSetEngineInfoFeature),
    (some .sigNotationClearaddget, .clearAddGetSignatureNotationsFeature),
    (some .dataSetFileName, .setDataFileNameFeeature),
    (some .keylistModeSigNotations, .signatureNotationsKeylistModeFeature),
    (some .keySigNotations, .keySignatureNotationsFeature),
    (some .keyTIsQualified, .keyIsQualifiedFeature),
    (some .sigNotationCritical, .signatureNotationsCriticalFlagFeature),
    (some .sigNotationFlagsT, .signatureNotationsFlagsFeature),
    (some .sigNotationHumanReadable, .signatureNotationsHumanReadableFlagFeature),
    (some .subkeyTIsQualified, .subkeyIsQualifiedFeature),
    (some .engineInfoTHomeDir, .engineInfoHomeDirFeature),
    (some .decryptResultTFileName, .decryptionResultFileNameFeature),
    (some .decryptResultTRecipients, .decryptionResultRecipientsFeature),
    (some .verifyResultTFileName, .verificationResultFileNameFeature),
    (some .signatureTPkaFields, .signaturePkaFieldsFeature),
    (some .signatureTAlgorithmFields, .signatureAlgorithmFieldsFeature),
    (some .getFdptr, .fdPointerFeature),
    (some .opGetauditlog, .auditLogFeature),
    (some .protocolGpgconf, .gpgConfEngineFeature),
    (some .cancelAsync, .cancelOperationAsyncFeature),
    (some .encryptNoEncryptTo, .noEncryptToEncryptionFlagFeature),
    (some .subkeyTIsCardkey, .cardKeyFeature),
    (some .assuanEngine, .assuanEngineFeature),
    (some .keylistModeEphemeral, .ephemeralKeylistModeFeature),
    (some .opImportKeys, .importFromKeyserverFeature),
    (some .g13Vfs, .g13VFSFeature),
    (some .opPasswd, .passwdFeature)]

/-- The same for the second word. -/
def joinedFeatures2 : List (Option Capability × Feature2) :=
  [(some .dataIdentifyGood, .binaryAndFineGrainedIdentify),
    (some .encryptSymmetric, .encryptSymmetric),
    (some .dataSetFlag, .progressForCallbacks)]

section Build
variable (found : Capability → Bool)

/-- The preprocessor: what is left of a table. -/
def preprocess {α : Type} (table : List (Option Capability × α)) : List α :=
  (table.filter fun p => p.1.all found).map Prod.snd

/-- `supported_features`. -/
def supportedFeatures : UInt64 := union ((preprocess found joinedFeatures).map Feature.value)

/-- `supported_features2`. -/
def supportedFeatures2 : UInt64 := union ((preprocess found joinedFeatures2).map Feature2.value)

/-- `hasFeature(features, features2)`; an `unsigned long` has 64 bits. -/
def hasFeature (features features2 : UInt64) : Bool :=
  contains (supportedFeatures found) features && contains (supportedFeatures2 found) features2

end Build

/-! ## What the features stand for -/

/-- What a feature needs of gpgme. -/
inductive Need
  | nothing
  | capability (c : Capability)
  /-- The largest value of an enumeration is no feature. -/
  | impossible

/-- What a feature needs, by what it is named after. -/
def Feature.need : Feature → Need
  | validatingKeylistModeFeature | cancelOperationFeature | wrongKeyUsageFeature => .nothing
  | defaultCertificateInclusionFeature => .capability .includeCertsDefault
  | getSetEngineInfoFeature => .capability .ctxGetsetEngineInfo
  | engineInfoHomeDirFeature => .capability .engineInfoTHomeDir
  | noEncryptToEncryptionFlagFeature => .capability .encryptNoEncryptTo
  | ephemeralKeylistModeFeature => .capability .keylistModeEphemeral
  | setDataFileNameFeeature => .capability .dataSetFileName
  | verificationResultFileNameFeature => .capability .verifyResultTFileName
  | decryptionResultFileNameFeature => .capability .decryptResultTFileName
  | decryptionResultRecipientsFeature => .capability .decryptResultTRecipients
  | auditLogFeature => .capability .opGetauditlog
  | gpgConfEngineFeature => .capability .protocolGpgconf
  | cancelOperationAsyncFeature => .capability .cancelAsync
  | assuanEngineFeature => .capability .assuanEngine
  | clearAddGetSignatureNotationsFeature => .capability .sigNotationClearaddget
  | signatureNotationsKeylistModeFeature => .capability .keylistModeSigNotations
  | keySignatureNotationsFeature => .capability .keySigNotations
  | signatureNotationsFlagsFeature => .capability .sigNotationFlagsT
  | signatureNotationsCriticalFlagFeature => .capability .sigNotationCritical
  | signatureNotationsHumanReadableFlagFeature => .capability .sigNotationHumanReadable
  | cardKeyFeature => .capability .subkeyTIsCardkey
  | importFromKeyserverFeature => .capability .opImportKeys
  | keyIsQualifiedFeature => .capability .keyTIsQualified
  | subkeyIsQualifiedFeature => .capability .subkeyTIsQualified
  | signaturePkaFieldsFeature => .capability .signatureTPkaFields
  | signatureAlgorithmFieldsFeature => .capability .signatureTAlgorithmFields
  | fdPointerFeature => .capability .getFdptr
  | g13VFSFeature => .capability .g13Vfs
  | passwdFeature => .capability .opPasswd
  | featureMaxValue => .impossible

/-- The same for the features of the second word. -/
def Feature2.need : Feature2 → Need
  | binaryAndFineGrainedIdentify => .capability .dataIdentifyGood
  | encryptSymmetric => .capability .encryptSymmetric
  | progressForCallbacks => .capability .dataSetFlag
  | feature2MaxValue => .impossible

/-- The need is met by what was found. -/
def Need.met (found : Capability → Bool) : Need → Bool
  | nothing => true
  | capability c => found c
  | impossible => false

/-- The feature is unconditional, or its capability was found. -/
def Feature.Available (found : Capability → Bool) (f : Feature) : Prop :=
  f.need.met found = true

def Feature2.Available (found : Capability → Bool) (f : Feature2) : Prop :=
  f.need.met found = true

instance (found : Capability → Bool) (f : Feature) : Decidable (f.Available found) :=
  inferInstanceAs (Decidable (_ = _))

/-- What `hasFeature` should say of the features `S` and `S2`, each a list in any order. -/
def ReportsExactly (found : Capability → Bool) (S : List Feature) (S2 : List Feature2) : Prop :=
  hasFeature found (union (S.map Feature.value)) (union (S2.map Feature2.value)) = true ↔
    (∀ f ∈ S, f.Available found) ∧ ∀ f ∈ S2, f.Available found

/-! ## The bits of the constants -/

namespace Feature

/-- The place of a feature in the enumeration. -/
def place (f : Feature) : ℕ := f.ctorIdx

theorem place_lt (f : Feature) : f.place < 64 := by cases f <;> decide

theorem place_injective : Function.Injective place :=
  Function.LeftInverse.injective (g := Feature.ofNat) Feature.ofNat_ctorIdx

/-- All constants but one have the bit at their place and no other. -/
theorem value_eq (f : Feature) :
    f.value = if f = keyIsQualifiedFeature then
      bit f.place ||| bit verificationResultFileNameFeature.place else bit f.place := by
  cases f <;> decide

theorem hasBit_value (f : Feature) (i : ℕ) :
    hasBit f.value i = true ↔
      f.place = i ∨ f = keyIsQualifiedFeature ∧ verificationResultFileNameFeature.place = i := by
  rw [value_eq]
  by_cases h : f = keyIsQualifiedFeature
  · simp [h, hasBit_bit (place_lt _)]
  · simp [h, hasBit_bit (place_lt _)]

/-- A feature is joined exactly if it is available. -/
theorem mem_preprocess (found : Capability → Bool) (f : Feature) :
    f ∈ preprocess found joinedFeatures ↔ f.Available found := by
  simp only [preprocess, List.mem_map, List.mem_filter, Prod.exists, exists_eq_right]
  cases f <;> simp [joinedFeatures, Available, need, Need.met]

/-- What the word of supported features contains: a feature that is available, and the one
whose bit another has. -/
theorem contains_supportedFeatures (found : Capability → Bool) (f : Feature) :
    contains (supportedFeatures found) f.value = true ↔
      f.Available found ∨
        f = verificationResultFileNameFeature ∧ keyIsQualifiedFeature.Available found := by
  have hbit : ∀ i, hasBit (supportedFeatures found) i = true ↔
      ∃ g : Feature, g.Available found ∧ hasBit g.value i = true := by
    intro i
    rw [supportedFeatures, hasBit_union]
    simp [mem_preprocess]
  rw [contains_iff]
  simp only [hbit, hasBit_value]
  constructor
  · intro h
    obtain ⟨g, hg, hplace | ⟨rfl, hplace⟩⟩ := h f.place (.inl rfl)
    · exact .inl (place_injective hplace ▸ hg)
    · exact .inr ⟨(place_injective hplace).symm, hg⟩
  · rintro (hf | ⟨rfl, hkey⟩) i hi
    · exact ⟨f, hf, hi⟩
    · rcases hi with hi | ⟨hne, -⟩
      · exact ⟨_, hkey, .inr ⟨rfl, hi⟩⟩
      · cases hne

end Feature

namespace Feature2

/-- The place of a feature in the enumeration, of which the last has the largest value. -/
def place : Feature2 → ℕ
  | binaryAndFineGrainedIdentify => 0
  | encryptSymmetric => 1
  | progressForCallbacks => 2
  | feature2MaxValue => 31

theorem place_injective : Function.Injective place := by
  intro f g h
  cases f <;> cases g <;> first | rfl | cases h

theorem hasBit_value (f : Feature2) (i : ℕ) : hasBit f.value i = true ↔ f.place = i := by
  have hvalue : f.value = bit f.place := by cases f <;> decide
  rw [hvalue, hasBit_bit (by cases f <;> decide), decide_eq_true_iff]

theorem mem_preprocess (found : Capability → Bool) (f : Feature2) :
    f ∈ preprocess found joinedFeatures2 ↔ f.Available found := by
  simp only [preprocess, List.mem_map, List.mem_filter, Prod.exists, exists_eq_right]
  cases f <;> simp [joinedFeatures2, Available, need, Need.met]

/-- The second word contains exactly what is available. -/
theorem contains_supportedFeatures2 (found : Capability → Bool) (f : Feature2) :
    contains (supportedFeatures2 found) f.value = true ↔ f.Available found := by
  have hbit : ∀ i, hasBit (supportedFeatures2 found) i = true ↔
      ∃ g : Feature2, g.Available found ∧ g.place = i := by
    intro i
    rw [supportedFeatures2, hasBit_union]
    simp [mem_preprocess, hasBit_value]
  rw [contains_iff]
  simp only [hbit, hasBit_value]
  constructor
  · intro h
    obtain ⟨g, hg, hplace⟩ := h f.place rfl
    exact place_injective hplace ▸ hg
  · rintro hf i hi
    exact ⟨f, hf, hi⟩

end Feature2

/-! ## Combinations -/

section Combinations
variable (found : Capability → Bool)

/-- Asking for a combination is asking for each. -/
theorem hasFeature_union (S : List Feature) (S2 : List Feature2) :
    hasFeature found (union (S.map Feature.value)) (union (S2.map Feature2.value)) =
      (S.all (fun f => hasFeature found f.value 0) &&
        S2.all fun f => hasFeature found 0 f.value) := by
  have hzero : ∀ word, contains word 0 = true := by
    intro word
    rw [contains_iff]
    simp
  simp [hasFeature, contains_union, hzero, Function.comp_def]

/-- What `hasFeature` says of a combination. -/
theorem hasFeature_iff (S : List Feature) (S2 : List Feature2) :
    hasFeature found (union (S.map Feature.value)) (union (S2.map Feature2.value)) = true ↔
      (∀ f ∈ S, f.Available found ∨ f = .verificationResultFileNameFeature ∧
        Feature.keyIsQualifiedFeature.Available found) ∧ ∀ f ∈ S2, f.Available found := by
  simp [hasFeature, contains_union, Feature.contains_supportedFeatures,
    Feature2.contains_supportedFeatures2]

variable {found} {S : List Feature} {S2 : List Feature2}

/-- The bit that two features share does no harm if the one is there, the other is not, or nobody
asks. -/
theorem reportsExactly_of (h : found .verifyResultTFileName = true ∨
    found .keyTIsQualified = false ∨ .verificationResultFileNameFeature ∉ S) :
    ReportsExactly found S S2 := by
  rw [ReportsExactly, hasFeature_iff]
  refine and_congr_left fun _ => forall₂_congr fun f hf => ⟨?_, .inl⟩
  rintro (hf' | ⟨rfl, hkey⟩)
  · exact hf'
  · have hqualified : found .keyTIsQualified = true := hkey
    rcases h with hfile | hnot | hmem
    · exact hfile
    · rw [hqualified] at hnot
      cases hnot
    · exact absurd hf hmem

/-- If it is asked for, it is reported although it is not available; so the answer is right only if
something else is missing. -/
theorem reportsExactly_iff_of_shared (hfile : ¬ found .verifyResultTFileName = true)
    (hqualified : found .keyTIsQualified = true)
    (hmem : .verificationResultFileNameFeature ∈ S) :
    ReportsExactly found S S2 ↔
      (∃ f ∈ S, f ≠ .verificationResultFileNameFeature ∧ ¬ f.Available found) ∨
        ∃ f ∈ S2, ¬ f.Available found := by
  have hkey : Feature.keyIsQualifiedFeature.Available found := hqualified
  have hno : ¬ ((∀ f ∈ S, f.Available found) ∧ ∀ f ∈ S2, f.Available found) :=
    fun h => hfile (h.1 _ hmem)
  rw [ReportsExactly, hasFeature_iff]
  simp only [hno, iff_false, hkey, and_true]
  constructor
  · intro h
    by_contra hall
    push Not at hall
    exact h ⟨fun f hf => or_iff_not_imp_right.mpr fun hne => hall.1 f hf hne, hall.2⟩
  · rintro (⟨f, hf, hne, hbad⟩ | ⟨f, hf, hbad⟩) ⟨h, h2⟩
    · exact (h f hf).elim hbad hne
    · exact hbad (h2 f hf)

variable (found)

/-- **When `hasFeature` says what it should.**  Always, if gpgme was found to have file names in
the results of verifications, or not to have keys that are qualified; else exactly if these file
names are not asked for, or something else is that there is not.  A combination is always
reported if and only if each of its features is. -/
theorem reportsExactly_iff (S : List Feature) (S2 : List Feature2) :
    (ReportsExactly found S S2 ↔
      (found .verifyResultTFileName = true ∨ found .keyTIsQualified = false ∨
        .verificationResultFileNameFeature ∉ S ∨
        (∃ f ∈ S, f ≠ .verificationResultFileNameFeature ∧ ¬ f.Available found) ∨
        ∃ f ∈ S2, ¬ f.Available found)) ∧
    hasFeature found (union (S.map Feature.value)) (union (S2.map Feature2.value)) =
      (S.all (fun f => hasFeature found f.value 0) &&
        S2.all fun f => hasFeature found 0 f.value) := by
  refine ⟨?_, hasFeature_union found S S2⟩
  by_cases hfile : found .verifyResultTFileName = true
  · exact iff_of_true (reportsExactly_of (.inl hfile)) (.inl hfile)
  by_cases hqualified : found .keyTIsQualified = false
  · exact iff_of_true (reportsExactly_of (.inr (.inl hqualified))) (.inr (.inl hqualified))
  by_cases hmem : .verificationResultFileNameFeature ∈ S
  · rw [Bool.not_eq_false] at hqualified
    rw [reportsExactly_iff_of_shared hfile hqualified hmem]
    simp [hfile, hqualified, hmem]
  · exact iff_of_true (reportsExactly_of (.inr (.inr hmem))) (.inr (.inr (.inl hmem)))

end Combinations

/-- A library that was built with keys that are qualified, and without anything else, says that
it has file names in the results of verifications. -/
theorem not_reportsExactly_keyIsQualified :
    ¬ ∀ (found : Capability → Bool) (S : List Feature) (S2 : List Feature2),
      ReportsExactly found S S2 := by
  intro h
  have hreport := (h (· == .keyTIsQualified) [.verificationResultFileNameFeature] []).mp (by decide)
  exact absurd (hreport.1 _ List.mem_cons_self) (by decide)

end Gpgmepp
