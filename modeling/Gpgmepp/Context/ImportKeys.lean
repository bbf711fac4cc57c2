import Gpgmepp.Context.Operations
import Gpgmepp.Key
import Gpgmepp.Lib.Walk

/-!
# The import of keys

`Context::importKeys(kk)` asks gpgme to import keys that are already listed.  If gpgme cannot, and
the protocol is CMS, it exports the keys in the external key-list mode, and imports what was
exported.

What is exported is selected by patterns, which are to be the identifiers of the keys.  If there is
none, gpgme exports all keys.  And a key that has an empty fingerprint is left out even if it has a
key ID.  In all other cases the workaround exports the right keys, and always it restores the mode
and returns the error of the last operation: `importsVector_iff`.

## Main definitions

* `GpgmeOp`, `Performed`, `Session` — what is asked of gpgme, and the mode in which it is.
* `patterns`, `importKeysVector` — the function of the sources, which returns and sets what
  `Context.importKeysOf` says: `importKeysVector_d`.
* `identifiers`, `ImportsVector` — what it should do.
-/

namespace Gpgmepp

namespace Context

variable {σ ρ : Type*} {accepts : UInt32 → Bool}

/-- `GPGME_KEYLIST_MODE_EXTERN`. -/
def keylistModeExtern : UInt32 := 2

/-- A key-list mode that gpgme takes, as the mode of a context always is one. -/
abbrev KeylistMode (accepts : UInt32 → Bool) := { mode : UInt32 // accepts mode = true }

/-- The operations of gpgme, each with what it is given; of a data object, whether there is one. -/
inductive GpgmeOp
  | importKeys (keys : List ℕ)
  | exportExt (patterns : List CString) (data : Bool)
  | importData (data : Bool)
  deriving DecidableEq

/-- An operation that was carried out, in a mode. -/
structure Performed where
  op : GpgmeOp
  mode : UInt32
  err : Error
  deriving DecidableEq

/-- A context in the course of a call. -/
structure Session (accepts : UInt32 → Bool) where
  d : Private
  mode : KeylistMode accepts
  performed : List Performed

namespace Session

/-- `d->lasterr = gpgme_op_...`. -/
def perform (s : Session accepts) (op : GpgmeOp) (err : Error) : Session accepts :=
  { s with
    d := complete s.d err
    performed := s.performed ++ [⟨op, s.mode, err⟩] }

/-- `gpgme_set_keylist_mode`, which changes nothing if gpgme does not take the mode. -/
def setKeylistMode (s : Session accepts) (mode : UInt32) : Session accepts :=
  if h : accepts mode = true then { s with mode := ⟨mode, h⟩ } else s

end Session

/-- What gpgme does in a call. -/
structure GpgmeOutcomes where
  /-- What `gpgme_op_import_keys` returns, if there is such a function. -/
  imported : Error
  /-- Whether `gpgme_data_new` makes a data object. -/
  dataNew : Bool
  exported : Error
  importedData : Error

/-- `ImportResult`: its error, and whether it was given the context to get the rest from. -/
structure ImportResult where
  error : Error
  ofContext : Bool
  deriving DecidableEq

/-- `*s`, of a string. -/
def nonEmpty (s : CString) : Bool := !s.bytes.isEmpty

/-- One step of the loop over the keys. -/
def pushPattern (w : Records σ ρ) (fprs : List CString) (key : Key) : List CString :=
  match key.primaryFingerprint w with
  | some fpr => if nonEmpty fpr then fprs ++ [fpr] else fprs
  | none =>
      match key.keyID w with
      | some keyid => if nonEmpty keyid then fprs ++ [keyid] else fprs
      | none => fprs

/-- The patterns, up to the null pointer that ends them. -/
def patterns (w : Records σ ρ) (kk : List Key) : List CString := kk.foldl (pushPattern w) []

/-- The workaround, with `shouldHaveResult` before it and after it. -/
def exportAndImport (w : Records σ ρ) (kk : List Key) (o : GpgmeOutcomes)
    (shouldHaveResult : Bool) (s : Session accepts) : Bool × Session accepts :=
  let oldMode := s.mode
  let s := s.setKeylistMode keylistModeExtern
  let s := s.perform (.exportExt (patterns w kk) o.dataNew) o.exported
  let s := s.setKeylistMode oldMode
  if s.d.lasterr.mErr ≠ 0 then (shouldHaveResult, s)
  else (true, s.perform (.importData o.dataNew) o.importedData)

section Functions
variable [LibGpgError]

/-- The condition of the workaround. -/
def fallsBack (cms : Bool) (err : Error) : Prop :=
  (err.code = LibGpgError.number .notImplemented ∨
    err.code = LibGpgError.number .notSupported) ∧ cms = true

instance (cms : Bool) (err : Error) : Decidable (fallsBack cms err) :=
  inferInstanceAs (Decidable (_ ∧ _))

/-- `Context::importKeys(kk)`, in a context with the key-list mode `mode`. -/
def importKeysVector (b : Build) (cms : Bool) (w : Records σ ρ) (kk : List Key)
    (o : GpgmeOutcomes) (mode : KeylistMode accepts) : ImportResult × Session accepts :=
  let s : Session accepts := ⟨⟨.importKeys, .fromCode .notImplemented⟩, mode, []⟩
  let s := if b.opImportKeys then s.perform (.importKeys (kk.filterMap id)) o.imported else s
  let (shouldHaveResult, s) :=
    if fallsBack cms s.d.lasterr then exportAndImport w kk o b.opImportKeys s
    else (b.opImportKeys, s)
  (⟨s.d.lasterr, shouldHaveResult⟩, s)

/-! ## What the function should do -/

/-- The fingerprint and the key ID of a key, those of them that are not empty. -/
def identifiers (w : Records σ ρ) (key : Key) : List CString :=
  ((key.bind fun r => (w r).subkeys.head?.bind GpgmeSubkey.fpr).toList ++
    (key.keyID w).toList).filter nonEmpty

/-- The keys that have an identifier. -/
def identified (w : Records σ ρ) (kk : List Key) : List Key :=
  kk.filter fun key => identifiers w key ≠ []

/-- The key has an empty fingerprint, and a key ID that is not. -/
def EmptyFingerprint (w : Records σ ρ) (key : Key) : Prop :=
  (∃ fpr, (key.bind fun r => (w r).subkeys.head?.bind GpgmeSubkey.fpr) = some fpr ∧
    nonEmpty fpr = false) ∧ ∃ keyid, key.keyID w = some keyid ∧ nonEmpty keyid = true

/-- The patterns of each export. -/
def exports (performed : List Performed) : List (List CString) :=
  performed.filterMap fun p =>
    match p.op with
    | .exportExt patterns _ => some patterns
    | _ => none

/-- What the function should do.  If it takes the workaround, it exports an identifier for each key
that has one, and nothing if there is none.  The mode stays as it is, and the error is that of the
last operation. -/
structure ImportsVector (b : Build) (cms : Bool) (w : Records σ ρ) (kk : List Key)
    (o : GpgmeOutcomes) (mode : KeylistMode accepts) : Prop where
  exports_eq : fallsBack cms (orElse b.opImportKeys o.imported .notImplemented) →
    if identified w kk = [] then exports (importKeysVector b cms w kk o mode).2.performed = []
    else ∃ patterns, exports (importKeysVector b cms w kk o mode).2.performed = [patterns] ∧
      List.Forall₂ (fun key pattern => pattern ∈ identifiers w key) (identified w kk) patterns
  mode_eq : (importKeysVector b cms w kk o mode).2.mode = mode
  error_eq : ∀ p, (importKeysVector b cms w kk o mode).2.performed.getLast? = some p →
    (importKeysVector b cms w kk o mode).1.error = p.err

end Functions

/-! ## The patterns -/

section Patterns
variable {w : Records σ ρ}

/-- The pattern for a key, if there is one. -/
def patternOf (w : Records σ ρ) (key : Key) : Option CString :=
  (key.primaryFingerprint w).filter nonEmpty

theorem pushPattern_eq (fprs : List CString) (key : Key) :
    pushPattern w fprs key = fprs ++ (patternOf w key).toList := by
  have hkeyID : key.primaryFingerprint w = none → key.keyID w = none := by
    simp only [Key.primaryFingerprint]
    cases key.bind fun r => (w r).subkeys.head?.bind GpgmeSubkey.fpr with
    | none => exact id
    | some fpr => exact nofun
  simp only [pushPattern, patternOf]
  cases hfpr : key.primaryFingerprint w with
  | none => simp [hkeyID hfpr]
  | some fpr => cases hempty : nonEmpty fpr <;> simp [hempty, Option.filter]

theorem patterns_eq (kk : List Key) : patterns w kk = kk.filterMap (patternOf w) :=
  Walk.foldl_of_append pushPattern_eq kk []

/-- The pattern is an identifier of the key, and a key that has one is left out only if its
fingerprint is empty. -/
theorem patternOf_cases (w : Records σ ρ) (key : Key) :
    (∃ pattern, patternOf w key = some pattern ∧ pattern ∈ identifiers w key ∧
      ¬ EmptyFingerprint w key) ∨
    patternOf w key = none ∧ (identifiers w key ≠ [] ↔ EmptyFingerprint w key) := by
  simp only [patternOf, Key.primaryFingerprint, identifiers, EmptyFingerprint]
  cases key.bind fun r => (w r).subkeys.head?.bind GpgmeSubkey.fpr with
  | none =>
      cases key.keyID w with
      | none => simp
      | some keyid => cases hkeyid : nonEmpty keyid <;> simp [hkeyid]
  | some fpr =>
      cases hfpr : nonEmpty fpr with
      | true => simp [hfpr]
      | false =>
          cases key.keyID w with
          | none => simp [hfpr]
          | some keyid => cases hkeyid : nonEmpty keyid <;> simp [hfpr, hkeyid]

theorem identified_eq_nil_iff (kk : List Key) :
    identified w kk = [] ↔ ¬ ∃ key ∈ kk, identifiers w key ≠ [] := by
  simp [identified]

/-- The patterns are as they should be exactly if no key has an empty fingerprint and a key ID. -/
theorem forall₂_patterns_iff (kk : List Key) :
    List.Forall₂ (fun key pattern => pattern ∈ identifiers w key) (identified w kk)
      (patterns w kk) ↔ ∀ key ∈ kk, ¬ EmptyFingerprint w key := by
  rw [patterns_eq, identified, Walk.forall₂_filterMap_iff]
  · refine forall₂_congr fun key _ => ?_
    rcases patternOf_cases w key with ⟨pattern, hpattern, hmem, hnot⟩ | ⟨hnone, hiff⟩
    · simp [hpattern, hnot]
    · simp [hnone, ← hiff]
  · intro key pattern hpattern
    rcases patternOf_cases w key with ⟨pattern', hpattern', hmem, -⟩ | ⟨hnone, -⟩
    · rw [hpattern, Option.some.injEq] at hpattern'
      subst hpattern'
      exact ⟨by simpa using List.ne_nil_of_mem hmem, hmem⟩
    · rw [hnone] at hpattern
      cases hpattern

end Patterns

/-! ## The workaround -/

section Workaround
variable {w : Records σ ρ} {kk : List Key} {o : GpgmeOutcomes} {shouldHaveResult : Bool}
  {s : Session accepts}

/-- A mode that a context has had is taken again. -/
theorem Session.setKeylistMode_self (s : Session accepts) (mode : KeylistMode accepts) :
    s.setKeylistMode mode = { s with mode := mode } := by
  rw [setKeylistMode, dif_pos mode.2]

/-- What the workaround comes to: the mode is as before, one export was carried out, and the error
is that of the last operation. -/
structure Exported (w : Records σ ρ) (kk : List Key) (o : GpgmeOutcomes) (s s' : Session accepts) :
    Prop where
  mode : s'.mode = s.mode
  d : s'.d = ⟨s.d.lastop, if o.exported.mErr ≠ 0 then o.exported else o.importedData⟩
  exports : exports s'.performed = exports s.performed ++ [patterns w kk]
  last : ∃ p, s'.performed.getLast? = some p ∧ p.err = s'.d.lasterr

theorem exportAndImport_spec (w : Records σ ρ) (kk : List Key) (o : GpgmeOutcomes)
    (shouldHaveResult : Bool) (s : Session accepts) :
    Exported w kk o s (exportAndImport w kk o shouldHaveResult s).2 := by
  -- the mode of the export makes no difference to what comes after it
  have hextern : ∃ mode, s.setKeylistMode keylistModeExtern = { s with mode := mode } := by
    rw [Session.setKeylistMode]
    split
    · exact ⟨_, rfl⟩
    · exact ⟨s.mode, rfl⟩
  obtain ⟨mode, hmode⟩ := hextern
  simp only [exportAndImport, hmode, Session.perform, Session.setKeylistMode_self, complete]
  split_ifs with herr
  · exact
      { mode := rfl
        d := by rw [if_pos herr]
        exports := by simp [Context.exports]
        last := ⟨_, List.getLast?_concat, rfl⟩ }
  · exact
      { mode := rfl
        d := by rw [if_neg herr]
        exports := by simp [Context.exports]
        last := ⟨_, List.getLast?_concat, rfl⟩ }

variable [LibGpgError]

/-- Before the workaround. -/
def attempted (b : Build) (kk : List Key) (o : GpgmeOutcomes) (mode : KeylistMode accepts) :
    Session accepts :=
  { d := ⟨.importKeys, orElse b.opImportKeys o.imported .notImplemented⟩
    mode := mode
    performed :=
      if b.opImportKeys then [⟨.importKeys (kk.filterMap id), mode, o.imported⟩] else [] }

theorem importKeysVector_eq (b : Build) (cms : Bool) (w : Records σ ρ) (kk : List Key)
    (o : GpgmeOutcomes) (mode : KeylistMode accepts) :
    (importKeysVector b cms w kk o mode).1.error =
        (importKeysVector b cms w kk o mode).2.d.lasterr ∧
      (importKeysVector b cms w kk o mode).2 =
        if fallsBack cms (orElse b.opImportKeys o.imported .notImplemented) then
          (exportAndImport w kk o b.opImportKeys (attempted b kk o mode)).2
        else attempted b kk o mode := by
  refine ⟨rfl, ?_⟩
  cases hop : b.opImportKeys with
  | false =>
      simp only [importKeysVector, attempted, orElse, hop, Bool.false_eq_true, if_false]
      split_ifs <;> rfl
  | true =>
      simp only [importKeysVector, attempted, orElse, hop, if_true, Session.perform, complete]
      split_ifs <;> rfl

theorem exports_attempted (b : Build) (kk : List Key) (o : GpgmeOutcomes)
    (mode : KeylistMode accepts) : exports (attempted b kk o mode).performed = [] := by
  cases hop : b.opImportKeys <;> simp [attempted, exports, hop]

/-- **One function in two models.**  Its error, and the members that it sets, are those of
`importKeysOf`, which the operations of a context do. -/
theorem importKeysVector_d (b : Build) (cms : Bool) (w : Records σ ρ) (kk : List Key)
    (o : GpgmeOutcomes) (mode : KeylistMode accepts) :
    ((importKeysVector b cms w kk o mode).1.error, (importKeysVector b cms w kk o mode).2.d) =
      importKeysOf b cms o.imported o.exported o.importedData := by
  obtain ⟨herror, hsession⟩ := importKeysVector_eq b cms w kk o mode
  rw [herror, hsession]
  simp only [importKeysOf, perform]
  by_cases hfall : fallsBack cms (orElse b.opImportKeys o.imported .notImplemented)
  · have hd := (exportAndImport_spec w kk o b.opImportKeys (attempted b kk o mode)).d
    rw [if_pos hfall, hd]
    simp only [fallsBack] at hfall
    rw [if_pos hfall]
    rfl
  · rw [if_neg hfall]
    simp only [fallsBack] at hfall
    rw [if_neg hfall]
    rfl

/-- Without the workaround, the mode is never changed, and the error is that of gpgme. -/
theorem importsVector_of_not_fallsBack {b : Build} {cms : Bool} {mode : KeylistMode accepts}
    (hfall : ¬ fallsBack cms (orElse b.opImportKeys o.imported .notImplemented)) :
    ImportsVector b cms w kk o mode := by
  obtain ⟨herror, hsession⟩ := importKeysVector_eq b cms w kk o mode
  rw [if_neg hfall] at hsession
  refine ⟨fun h => absurd h hfall, by rw [hsession]; rfl, fun p hp => ?_⟩
  rw [herror, hsession]
  rw [hsession] at hp
  cases hop : b.opImportKeys with
  | false => simp [attempted, hop] at hp
  | true =>
      simp only [attempted, hop, if_true, List.getLast?_singleton, Option.some.injEq] at hp
      subst hp
      simp [attempted, orElse, hop]

/-- With the workaround, only the patterns may be wrong. -/
theorem importsVector_of_fallsBack {b : Build} {cms : Bool} {mode : KeylistMode accepts}
    (hfall : fallsBack cms (orElse b.opImportKeys o.imported .notImplemented)) :
    ImportsVector b cms w kk o mode ↔ ¬ identified w kk = [] ∧
      List.Forall₂ (fun key pattern => pattern ∈ identifiers w key) (identified w kk)
        (patterns w kk) := by
  obtain ⟨herror, hsession⟩ := importKeysVector_eq b cms w kk o mode
  rw [if_pos hfall] at hsession
  have hspec := exportAndImport_spec w kk o b.opImportKeys (attempted b kk o mode)
  rw [← hsession] at hspec
  have hexports := hspec.exports
  rw [exports_attempted, List.nil_append] at hexports
  constructor
  · intro h
    have hlaw := h.exports_eq hfall
    rw [hexports] at hlaw
    split_ifs at hlaw with hnone
    obtain ⟨patterns, heq, hmatch⟩ := hlaw
    rw [List.cons.injEq] at heq
    exact ⟨hnone, heq.1 ▸ hmatch⟩
  · rintro ⟨hsome, hmatch⟩
    refine ⟨fun _ => ?_, hspec.mode, fun p hp => ?_⟩
    · rw [if_neg hsome, hexports]
      exact ⟨_, rfl, hmatch⟩
    · obtain ⟨q, hq, herr⟩ := hspec.last
      rw [hp, Option.some.injEq] at hq
      rw [herror, hq, herr]

/-- **When the import of keys does what it should**: if it takes the workaround, then exactly if
some key has an identifier, and no key has an empty fingerprint and a key ID. -/
theorem importsVector_iff (b : Build) (cms : Bool) (w : Records σ ρ) (kk : List Key)
    (o : GpgmeOutcomes) (mode : KeylistMode accepts) :
    ImportsVector b cms w kk o mode ↔
      (fallsBack cms (orElse b.opImportKeys o.imported .notImplemented) →
        (∃ key ∈ kk, identifiers w key ≠ []) ∧ ∀ key ∈ kk, ¬ EmptyFingerprint w key) := by
  by_cases hfall : fallsBack cms (orElse b.opImportKeys o.imported .notImplemented)
  · rw [importsVector_of_fallsBack hfall, identified_eq_nil_iff, not_not, forall₂_patterns_iff]
    exact ⟨fun h _ => h, fun h => h hfall⟩
  · exact iff_of_true (importsVector_of_not_fallsBack hfall) fun h => absurd h hfall

end Workaround

/-- Without keys, all keys are exported. -/
theorem not_importsVector_empty :
    letI := LibGpgError.documented
    ¬ ∀ (accepts : UInt32 → Bool) (b : Build) (cms : Bool) (w : Records Unit Unit)
      (kk : List Key) (o : GpgmeOutcomes) (mode : KeylistMode accepts),
      ImportsVector b cms w kk o mode := by
  let := LibGpgError.documented
  intro h
  let w : Records Unit Unit := fun _ =>
    ⟨false, false, false, false, false, false, false, false, false, false, 0, [], ()⟩
  have hlaw := (h (fun _ => true) ⟨false, false, false, false, false, false⟩ true w []
    ⟨.none, true, .none, .none⟩ ⟨1, rfl⟩).exports_eq (by decide)
  rw [identified, List.filter_nil, if_pos rfl] at hlaw
  revert hlaw
  decide

end Context

end Gpgmepp
