import Gpgmepp.CString
import Gpgmepp.Error
import Gpgmepp.Lib.Run

/-!
# The engines of a context

gpgme keeps for each context a linked list of its engines, each with the file name of its
binary and a home directory.  The two setters of `Context` change one of the two for the
engine of the context's protocol.  gpgme only takes both at once, so each reads the other
one from `engineInfo()`.  That is the first engine of the list, OpenPGP, whatever the
protocol is, and its file name or home directory is what is then installed:
`setsOwnField_iff`.

## Main definitions

* `EngineRecord`, `EngineInfo` — the list of gpgme, and the class around it.
* `GpgmeEngines` — what gpgme does with the two values.
* `setEngineFileName`, `setEngineHomeDirectory` — the setters of the source.
* `SetsOwnField`, `ReadsOwnEngine` — what a setter should do, and when it does.
-/

namespace Gpgmepp

open StateMachine

/-- `gpgme_protocol_t`: the protocols of contexts, and any other. -/
inductive GpgmeProtocol | openPGP | cms | assuan | g13 | other (n : ℕ)
  deriving DecidableEq, Repr

/-- An entry of the list behind `gpgme_engine_info_t`. -/
structure EngineRecord where
  protocol : GpgmeProtocol
  fileName : Option CString
  homeDir : Option CString
  deriving DecidableEq

/-- `EngineInfo`: it holds a pointer to an entry, and so to those after it. -/
structure EngineInfo where
  info : List EngineRecord

namespace EngineInfo

/-- `EngineInfo::fileName`, null if there is no entry. -/
def fileName (i : EngineInfo) : Option CString := i.info.head?.bind EngineRecord.fileName

/-- `EngineInfo::homeDirectory`. -/
def homeDirectory (i : EngineInfo) : Option CString := i.info.head?.bind EngineRecord.homeDir

end EngineInfo

/-- Both values of the engines of a protocol are replaced. -/
def replaceEngine (p : GpgmeProtocol) (fileName homeDir : Option CString)
    (engines : List EngineRecord) : List EngineRecord :=
  engines.map fun e => if e.protocol = p then { e with fileName, homeDir } else e

/-- `gpgme_ctx_set_engine_info`: it returns an error, or replaces both values. -/
class GpgmeEngines where
  ctxSetEngineInfo : List EngineRecord → GpgmeProtocol → Option CString → Option CString →
    UInt32 × List EngineRecord
  engines_eq : ∀ engines p fileName homeDir,
    (ctxSetEngineInfo engines p fileName homeDir).1 = 0 →
      (ctxSetEngineInfo engines p fileName homeDir).2 =
        replaceEngine p fileName homeDir engines

/-- A gpgme that takes values for the engines in its list, to evaluate instances with. -/
abbrev GpgmeEngines.documented : GpgmeEngines where
  ctxSetEngineInfo engines p fileName homeDir :=
    if engines.any (·.protocol = p) then (0, replaceEngine p fileName homeDir engines)
    else (1, engines)
  engines_eq := by
    intro engines p fileName homeDir h
    split at h
    · next hp => rw [if_pos hp]
    · cases h

/-- `gpgme_ctx_t`, as far as the engines of a context go. -/
structure Ctx where
  protocol : GpgmeProtocol
  engines : List EngineRecord

namespace Context

/-- `Context::engineInfo`. -/
def engineInfo (ctx : Ctx) : EngineInfo := ⟨ctx.engines⟩

section Setters
variable [GpgmeEngines]
open GpgmeEngines

/-- `Context::setEngineFileName`. -/
def setEngineFileName (ctx : Ctx) (filename : Option CString) : Error × Ctx :=
  let homeDir := (engineInfo ctx).homeDirectory
  let r := ctxSetEngineInfo ctx.engines ctx.protocol filename homeDir
  (⟨r.1⟩, { ctx with engines := r.2 })

/-- `Context::setEngineHomeDirectory`. -/
def setEngineHomeDirectory (ctx : Ctx) (homeDir : Option CString) : Error × Ctx :=
  let filename := (engineInfo ctx).fileName
  let r := ctxSetEngineInfo ctx.engines ctx.protocol filename homeDir
  (⟨r.1⟩, { ctx with engines := r.2 })

/-- A call of one of the two setters. -/
inductive Setting
  | fileName (filename : Option CString)
  | homeDirectory (homeDir : Option CString)

/-- A setter call that gpgme accepts. -/
def applySetting (ctx : Ctx) (s : Setting) : Except Error (Error × Ctx) :=
  let r :=
    match s with
    | .fileName filename => setEngineFileName ctx filename
    | .homeDirectory homeDir => setEngineHomeDirectory ctx homeDir
  if r.1 = .none then .ok r else .error r.1

end Setters

/-- The engine of a protocol. -/
def engine (ctx : Ctx) (p : GpgmeProtocol) : Option EngineRecord :=
  ctx.engines.find? (·.protocol = p)

/-- The one value of an engine that a setter is for. -/
def Setting.replaceIn : Setting → EngineRecord → EngineRecord
  | .fileName filename, e => { e with fileName := filename }
  | .homeDirectory homeDir, e => { e with homeDir }

/-- A setter call, completed. -/
abbrev SetterCall := Transition Ctx Setting Error

/-- What a setter should do: it replaces its value for the engine of the context, which
keeps the other one, and leaves all other engines as they are. -/
def SetsOwnField (t : SetterCall) : Prop :=
  ∀ p, engine t.target p =
    if p = t.source.protocol then (engine t.source p).map t.input.replaceIn
    else engine t.source p

/-- The value that a setter reads from `engineInfo()` is that of the engine of the context. -/
def ReadsOwnEngine (t : SetterCall) : Prop :=
  ∀ e, engine t.source t.source.protocol = some e →
    match t.input with
    | .fileName _ => (engineInfo t.source).homeDirectory = e.homeDir
    | .homeDirectory _ => (engineInfo t.source).fileName = e.fileName

/-- The last file name in a list of calls, or else the one before. -/
def lastFileName (ss : List Setting) (before : Option CString) : Option CString :=
  ss.foldl (fun f s => match s with | .fileName f => f | .homeDirectory _ => f) before

/-- The last home directory in a list of calls, or else the one before. -/
def lastHomeDirectory (ss : List Setting) (before : Option CString) : Option CString :=
  ss.foldl (fun h s => match s with | .fileName _ => h | .homeDirectory h => h) before

/-! ## One setter call -/

/-- Replacing values leaves the protocols of the list, so that it can be looked up first. -/
theorem find_replaceEngine (p q : GpgmeProtocol) (f h : Option CString)
    (engines : List EngineRecord) :
    (replaceEngine p f h engines).find? (·.protocol = q) =
      if q = p then (engines.find? (·.protocol = q)).map fun e => { e with fileName := f, homeDir := h }
      else engines.find? (·.protocol = q) := by
  have hprotocol : ((fun e : EngineRecord => decide (e.protocol = q)) ∘ fun e : EngineRecord =>
      if e.protocol = p then { e with fileName := f, homeDir := h } else e) =
        fun e => decide (e.protocol = q) := by
    funext e
    simp only [Function.comp_apply]
    split <;> rfl
  rw [replaceEngine, List.find?_map, hprotocol]
  cases hfind : engines.find? (·.protocol = q) with
  | none => simp
  | some e =>
      have he : e.protocol = q := by simpa using List.find?_some hfind
      by_cases hq : q = p
      · simp [he, hq]
      · simp [he, hq]

section Calls
variable [GpgmeEngines]
open GpgmeEngines

/-- The two values that a setter passes on. -/
def passed (ctx : Ctx) : Setting → Option CString × Option CString
  | .fileName filename => (filename, (engineInfo ctx).homeDirectory)
  | .homeDirectory homeDir => ((engineInfo ctx).fileName, homeDir)

/-- **What an accepted call does**: the engine of the context gets both values. -/
theorem engine_of_applySetting {ctx ctx' : Ctx} {s : Setting} {e : Error}
    (h : applySetting ctx s = .ok (e, ctx')) :
    ctx'.protocol = ctx.protocol ∧
      ctx'.engines = replaceEngine ctx.protocol (passed ctx s).1 (passed ctx s).2 ctx.engines := by
  obtain ⟨r, hr⟩ : ∃ r, ctxSetEngineInfo ctx.engines ctx.protocol (passed ctx s).1
    (passed ctx s).2 = r := ⟨_, rfl⟩
  have hset : applySetting ctx s =
      if (⟨r.1⟩ : Error) = .none then .ok (⟨r.1⟩, { ctx with engines := r.2 })
      else .error ⟨r.1⟩ := by
    subst hr
    cases s <;> rfl
  rw [hset] at h
  split_ifs at h with hok
  obtain ⟨-, rfl⟩ := Prod.mk.inj (Except.ok.inj h)
  refine ⟨rfl, ?_⟩
  rw [← engines_eq _ _ _ _ (by rw [hr]; exact congrArg Error.mErr hok), hr]

/-- An accepted call changes its own value only, exactly if the other value that it passes
on is that of the engine of the context. -/
theorem setsOwnField_iff_readsOwnEngine {ctx ctx' : Ctx} {s : Setting} {e : Error}
    (h : applySetting ctx s = .ok (e, ctx')) :
    SetsOwnField ⟨ctx, s, e, ctx'⟩ ↔ ReadsOwnEngine ⟨ctx, s, e, ctx'⟩ := by
  obtain ⟨-, hengines⟩ := engine_of_applySetting h
  have hengine : ∀ p, engine ctx' p = if p = ctx.protocol then
      (engine ctx p).map fun e => { e with fileName := (passed ctx s).1, homeDir := (passed ctx s).2 }
      else engine ctx p := by
    intro p
    simp only [engine, hengines]
    exact find_replaceEngine _ p _ _ _
  have hobeys : SetsOwnField ⟨ctx, s, e, ctx'⟩ ↔
      (engine ctx ctx.protocol).map (fun e =>
        { e with fileName := (passed ctx s).1, homeDir := (passed ctx s).2 }) =
      (engine ctx ctx.protocol).map s.replaceIn := by
    constructor
    · intro hset
      have hown := (hengine ctx.protocol).symm.trans (hset ctx.protocol)
      rwa [if_pos rfl, if_pos rfl] at hown
    · intro hown p
      show engine ctx' p = if p = ctx.protocol then (engine ctx p).map s.replaceIn else _
      rw [hengine]
      by_cases hp : p = ctx.protocol
      · rw [if_pos hp, if_pos hp, hp, hown]
      · rw [if_neg hp, if_neg hp]
  rw [hobeys]
  simp only [ReadsOwnEngine]
  cases hown : engine ctx ctx.protocol with
  | none => simp
  | some e =>
      cases s with
      | fileName f => simp [passed, Setting.replaceIn]
      | homeDirectory h => simp [passed, Setting.replaceIn]

/-! ## Sequences of calls -/

omit [GpgmeEngines] in
/-- The first engine of the list is that of OpenPGP. -/
def OpenPGPFirst (ctx : Ctx) : Prop := ∃ e rest, ctx.engines = e :: rest ∧ e.protocol = .openPGP

theorem OpenPGPFirst.step {ctx ctx' : Ctx} {s : Setting} {e : Error} (h : OpenPGPFirst ctx)
    (hstep : applySetting ctx s = .ok (e, ctx')) : OpenPGPFirst ctx' := by
  obtain ⟨e₀, rest, hengines, he₀⟩ := h
  obtain ⟨-, hengines'⟩ := engine_of_applySetting hstep
  rw [hengines, replaceEngine, List.map_cons] at hengines'
  refine ⟨_, _, hengines', ?_⟩
  split <;> exact he₀

omit [GpgmeEngines] in
/-- In a context for OpenPGP the engine of the context is the first. -/
theorem readsOwnEngine_of_openPGP {t : SetterCall} (hp : t.source.protocol = .openPGP)
    (h : OpenPGPFirst t.source) : ReadsOwnEngine t := by
  obtain ⟨e₀, rest, hengines, he₀⟩ := h
  intro e he
  simp only [engine, hengines, hp, List.find?_cons, he₀, decide_true, Option.some.injEq] at he
  subst he
  cases t.input with
  | fileName f => simp only [engineInfo, EngineInfo.homeDirectory, hengines]; rfl
  | homeDirectory h => simp only [engineInfo, EngineInfo.fileName, hengines]; rfl

omit [GpgmeEngines] in
/-- The two values of an engine after a sequence of calls. -/
def replaceAll (ss : List Setting) (e : EngineRecord) : EngineRecord :=
  { e with
    fileName := lastFileName ss e.fileName
    homeDir := lastHomeDirectory ss e.homeDir }

omit [GpgmeEngines] in
theorem replaceAll_cons (s : Setting) (ss : List Setting) (e : EngineRecord) :
    replaceAll (s :: ss) e = replaceAll ss (s.replaceIn e) := by
  cases s <;> rfl

/-- Calls that each change their own value leave the last values set. -/
theorem engine_of_run {ctx ctx' : Ctx} {ts : List SetterCall} (h : Run applySetting ctx ts ctx')
    (hset : ∀ t ∈ ts, SetsOwnField t) (p : GpgmeProtocol) :
    engine ctx' p =
      if p = ctx.protocol then (engine ctx p).map (replaceAll (ts.map Transition.input))
      else engine ctx p := by
  induction h with
  | nil ctx =>
      have hnil : replaceAll [] = id := rfl
      simp [hnil]
  | @cons ctx s e ctx₁ ts ctx' hstep _ ih =>
      obtain ⟨hfirst, hrest⟩ := List.forall_mem_cons.mp hset
      have hone := hfirst p
      simp only at hone
      rw [ih hrest, (engine_of_applySetting hstep).1, hone]
      by_cases hp : p = ctx.protocol
      · simp only [hp, if_true, Option.map_map, List.map_cons]
        exact congrArg (fun f => Option.map f _) (funext fun e => (replaceAll_cons s _ e).symm)
      · simp only [hp, if_false]

/-- **When the setters change their own values only.**  In a sequence of accepted calls, all
do exactly if each reads, for the value it passes on, that of the engine of the context.
Then the last file name and the last home directory are left, and no other engine is
affected.  In a context for OpenPGP it is so always. -/
theorem setsOwnField_iff (ctx ctx' : Ctx) (ts : List SetterCall) (hfirst : OpenPGPFirst ctx)
    (h : Run applySetting ctx ts ctx') :
    ((∀ t ∈ ts, SetsOwnField t) ↔ ∀ t ∈ ts, ReadsOwnEngine t) ∧
    ((∀ t ∈ ts, ReadsOwnEngine t) → ∀ p, engine ctx' p =
      if p = ctx.protocol then (engine ctx p).map (replaceAll (ts.map Transition.input))
      else engine ctx p) ∧
    (ctx.protocol = .openPGP → ∀ t ∈ ts, ReadsOwnEngine t) := by
  have hiff : (∀ t ∈ ts, SetsOwnField t) ↔ ∀ t ∈ ts, ReadsOwnEngine t :=
    h.forall_iff (fun _ => True) _ _ trivial fun _ _ _ _ _ hstep =>
      ⟨setsOwnField_iff_readsOwnEngine hstep, fun _ => trivial⟩
  refine ⟨hiff, fun hreads p => engine_of_run h (hiff.mpr hreads) p, fun hp => ?_⟩
  refine Run.forall_mem (fun m => m.protocol = .openPGP ∧ OpenPGPFirst m) ReadsOwnEngine h
    ⟨hp, hfirst⟩ ?_ ?_
  · rintro m s e m' ⟨hm, hm'⟩ hstep
    exact ⟨(engine_of_applySetting hstep).1.trans hm, hm'.step hstep⟩
  · rintro m s e m' ⟨hm, hm'⟩ _
    exact readsOwnEngine_of_openPGP hm hm'

omit [GpgmeEngines] in
/-- A context of gpgme with engines for OpenPGP and CMS in different homes. -/
def twoEngines (p : GpgmeProtocol) : Ctx :=
  ⟨p, [⟨.openPGP, some (.lit "gpg2"), some (.lit "home")⟩,
    ⟨.cms, some (.lit "gpgsm"), some (.lit "other")⟩]⟩

omit [GpgmeEngines] in
theorem openPGPFirst_twoEngines (p : GpgmeProtocol) : OpenPGPFirst (twoEngines p) :=
  ⟨_, _, rfl, rfl⟩

omit [GpgmeEngines] in
theorem setsOwnField_openPGP :
    letI := GpgmeEngines.documented
    ∃ ts ctx', ts.map Transition.input = [.fileName (some (.lit "gpg"))] ∧
      Run applySetting (twoEngines .openPGP) ts ctx' ∧
      (((∀ t ∈ ts, SetsOwnField t) ↔ ∀ t ∈ ts, ReadsOwnEngine t) ∧
      ((∀ t ∈ ts, ReadsOwnEngine t) → ∀ p, engine ctx' p =
        if p = (twoEngines .openPGP).protocol then
          (engine (twoEngines .openPGP) p).map (replaceAll (ts.map Transition.input))
        else engine (twoEngines .openPGP) p) ∧
      ((twoEngines .openPGP).protocol = .openPGP → ∀ t ∈ ts, ReadsOwnEngine t)) := by
  let := GpgmeEngines.documented
  have hrun : Run applySetting (twoEngines .openPGP) [⟨twoEngines .openPGP,
      .fileName (some (.lit "gpg")), .none, _⟩] _ := .single rfl
  exact ⟨_, _, rfl, hrun, setsOwnField_iff _ _ _ (openPGPFirst_twoEngines _) hrun⟩

omit [GpgmeEngines] in
/-- In a context for CMS, setting the file name installs the home directory of OpenPGP. -/
theorem not_setsOwnField_cms :
    letI := GpgmeEngines.documented
    ¬ ∀ (ctx ctx' : Ctx) (ts : List SetterCall), OpenPGPFirst ctx →
      Run applySetting ctx ts ctx' → ∀ t ∈ ts, SetsOwnField t := by
  let := GpgmeEngines.documented
  intro h
  have hrun : Run applySetting (twoEngines .cms) [⟨twoEngines .cms,
      .fileName (some (.lit "gpgsm2")), .none, _⟩] _ := .single rfl
  have hset := h _ _ _ (openPGPFirst_twoEngines .cms) hrun _ (List.mem_singleton_self _) .cms
  revert hset
  decide

end Calls

end Context

end Gpgmepp
