import Gpgmepp.Context.EngineInfo
import Gpgmepp.Features
import Gpgmepp.Lib.Owners

/-!
# The lives of contexts

A `Context` owns a context of gpgme, which is made before it and released with it, and the
callbacks that an event loop interactor installs.  gpgme has a copy of the callbacks, with a
pointer to the `Context`.

The functions that make a `Context` make the context of gpgme first.  If gpgme refuses the
protocol, they release it; but if they do not know the protocol or the engine, or were built
without it, they return without, and it is lost.

gpgme calls the callbacks with the pointer, and they assert that there is an interactor, which may
have been destroyed while it managed a context.

## Main definitions

* `World` — the contexts of gpgme, the callbacks, the contexts and the interactor.
* `createForProtocol`, `createForEngine`, `manage`, `eventIOCb`, … — the functions of the sources.
* `step` — the functions in any order, as a machine.
* `Op.Leaks`, `Op.Abandons` — what goes wrong.
-/

namespace Gpgmepp.LifeCycle

open Owning StateMachine

/-- `enum Protocol`. -/
inductive Protocol | openPGP | cms | unknownProtocol
  deriving DecidableEq

/-- `enum Engine`. -/
inductive Engine
  | gpgEngine | gpgSMEngine | gpgConfEngine | unknownEngine | assuanEngine | g13Engine
  deriving DecidableEq

/-- Where a context of gpgme is. -/
inductive Place
  /-- The variable `ctx` of a function. -/
  | ctx
  /-- `d->ctx`, of a `Context`. -/
  | context (c : ℕ)
  /-- Nobody has a pointer to it any more. -/
  | lost (g : ℕ)
  deriving DecidableEq

/-- A context of gpgme: its protocol, and its callbacks, of which there is the pointer that they are
given, if they are not null. -/
structure GpgmeContext where
  protocol : GpgmeProtocol
  ioCbs : Option ℕ

/-- All contexts, and whether there is an event loop interactor. -/
structure World where
  gpgme : Owners Place GpgmeContext
  /-- `d->iocbs`, of each `Context`; what it points to has a pointer to a `Context` in it. -/
  iocbs : Owners ℕ ℕ
  /-- The `Context` objects that are there. -/
  contexts : ℕ → Bool
  next : ℕ
  /-- `EventLoopInteractor::instance()` is not null. -/
  interactor : Bool

def start : World := ⟨.empty, .empty, fun _ => false, 0, false⟩

namespace World

/-- `gpgme_new(&ctx)`. -/
def gpgmeNew (w : World) : World :=
  { w with gpgme := w.gpgme.make .ctx ⟨.openPGP, none⟩ }

/-- `gpgme_release`. -/
def gpgmeRelease (w : World) (p : Place) : World := { w with gpgme := w.gpgme.reset p none }

/-- A member of a context of gpgme is set. -/
def change (w : World) (p : Place) (f : GpgmeContext → GpgmeContext) : World :=
  match w.gpgme.held p with
  | none => w
  | some g =>
      match w.gpgme.object g with
      | none => w
      | some v => { w with gpgme := w.gpgme.modify g (f v) }

@[simp] theorem held_change (w : World) (p : Place) (f : GpgmeContext → GpgmeContext) :
    (w.change p f).gpgme.held = w.gpgme.held := by
  unfold change
  split
  · rfl
  · split
    · rfl
    · rfl

@[simp] theorem interactor_change (w : World) (p : Place) (f : GpgmeContext → GpgmeContext) :
    (w.change p f).interactor = w.interactor := by
  unfold change
  split
  · rfl
  · split
    · rfl
    · rfl

/-- A function returns, and its variable is gone. -/
def lose (w : World) : World :=
  match w.gpgme.held .ctx with
  | none => w
  | some g => { w with gpgme := w.gpgme.move .ctx (.lost g) }

/-- `new Context(ctx)`. -/
def newContext (w : World) : World :=
  { w with
    gpgme := w.gpgme.move .ctx (.context w.next)
    contexts := Function.update w.contexts w.next true
    next := w.next + 1 }

/-- `Context::~Context`. -/
def deleteContext (w : World) (c : ℕ) : World :=
  { (w.gpgmeRelease (.context c)) with
    iocbs := w.iocbs.reset c none
    contexts := Function.update w.contexts c false }

/-- `Context::managedByEventLoopInteractor`. -/
def managed (w : World) (c : ℕ) : Bool := (w.iocbs.held c).isSome

/-- `Context::installIOCallbacks`, with callbacks that were made for the context. -/
def installIOCallbacks (w : World) (c : ℕ) : World :=
  { (w.change (.context c) fun v => { v with ioCbs := some c }) with iocbs := w.iocbs.make c c }

/-- `Context::uninstallIOCallbacks`. -/
def uninstallIOCallbacks (w : World) (c : ℕ) : World :=
  { (w.change (.context c) fun v => { v with ioCbs := none }) with iocbs := w.iocbs.reset c none }

end World

/-- `EventLoopInteractor::manage`. -/
def manage (w : World) : Option ℕ → World
  | none => w
  | some c => if w.managed c then w else w.installIOCallbacks c

/-- `EventLoopInteractor::unmanage`. -/
def unmanage (w : World) : Option ℕ → World
  | none => w
  | some c => w.uninstallIOCallbacks c

/-- `Context::setManagedByEventLoopInteractor`. -/
def setManagedByEventLoopInteractor (w : World) (c : ℕ) (b : Bool) : World :=
  if !w.interactor then w else if b then manage w (some c) else unmanage w (some c)

/-- `gpgme_set_protocol`, and what follows. -/
def useProtocol (w : World) (protocol : GpgmeProtocol) (setErr : Error) : Option ℕ × World :=
  if setErr.mErr ≠ 0 then (none, w.gpgmeRelease .ctx)
  else
    (some w.next, (w.change .ctx fun v => { v with protocol }).newContext)

/-- `Context::createForProtocol`, with what `gpgme_new` and `gpgme_set_protocol` return. -/
def createForProtocol (w : World) (proto : Protocol) (newErr setErr : Error) : Option ℕ × World :=
  if newErr.mErr ≠ 0 then (none, w)
  else
    match proto with
    | .openPGP => useProtocol w.gpgmeNew .openPGP setErr
    | .cms => useProtocol w.gpgmeNew .cms setErr
    | .unknownProtocol => (none, w.gpgmeNew.lose)

section Functions
variable [LibGpgError] (found : Capability → Bool)

/-- `Context::createForEngine`; the error is that which `*error` is set to. -/
def createForEngine (w : World) (eng : Engine) (newErr setErr : Error) :
    (Option ℕ × Error) × World :=
  if newErr.mErr ≠ 0 then ((none, newErr), w)
  else
    let use (protocol : GpgmeProtocol) : (Option ℕ × Error) × World :=
      let (c, w) := useProtocol w.gpgmeNew protocol setErr
      ((c, if setErr.mErr ≠ 0 then setErr else .none), w)
    match eng with
    | .assuanEngine =>
        if found .assuanEngine then use .assuan
        else ((none, .fromCode .notSupported), w.gpgmeNew.lose)
    | .g13Engine =>
        if found .g13Vfs then use .g13 else ((none, .fromCode .notSupported), w.gpgmeNew.lose)
    | _ => ((none, .fromCode .invArg), w.gpgmeNew.lose)

/-! ## Calls -/

/-- `gpgme_event_io_t`. -/
inductive EventIO | start | done | nextKey | nextTrustItem | other
  deriving DecidableEq

/-- What happens. -/
inductive Op
  | createForProtocol (proto : Protocol) (newErr setErr : Error)
  | createForEngine (eng : Engine) (newErr setErr : Error)
  | deleteContext (c : ℕ)
  | protocol (c : ℕ)
  | managedByEventLoopInteractor (c : ℕ)
  | setManagedByEventLoopInteractor (c : ℕ) (b : Bool)
  | manage (c : Option ℕ)
  | unmanage (c : Option ℕ)
  | newInteractor
  | deleteInteractor
  /-- A context of gpgme has something to tell. -/
  | event (g : ℕ) (type : EventIO)

/-- What a call returns, or which `Context` the interactor is told of. -/
inductive Output
  | nothing
  | created (c : Option ℕ) (err : Error)
  | protocol (p : Protocol)
  | bool (b : Bool)
  | told (c : ℕ)

/-- Why there is no step. -/
inductive Failure
  | assertionFailed
  /-- A pointer to a `Context` that is gone is used. -/
  | dangling
  /-- The program has no such object, or gpgme has no such context. -/
  | impossible
  deriving DecidableEq

/-- `Context::protocol`. -/
def protocolOf (w : World) (c : ℕ) : Protocol :=
  match (w.gpgme.held (.context c)).bind w.gpgme.object with
  | some ⟨.openPGP, _⟩ => .openPGP
  | some ⟨.cms, _⟩ => .cms
  | _ => .unknownProtocol

/-- `eventIOCb`, with the pointer that gpgme was given. -/
def eventIOCb (w : World) (data : ℕ) (type : EventIO) : Except Failure (Output × World) :=
  if !w.interactor then .error .assertionFailed
  else if type = .other then .ok (.nothing, w)
  else if !w.contexts data then .error .dangling
  else .ok (.told data, w)

/-- A function of a `Context` is called. -/
def ofContext (w : World) (c : ℕ) (r : Output × World) : Except Failure (Output × World) :=
  if w.contexts c then .ok r else .error .impossible

/-- A function of the interactor is called, with a pointer to a `Context`. -/
def ofInteractor (w : World) (c : Option ℕ) (r : Output × World) :
    Except Failure (Output × World) :=
  if w.interactor && c.all w.contexts then .ok r else .error .impossible

/-- One step. -/
def step (w : World) : Op → Except Failure (Output × World)
  | .createForProtocol proto newErr setErr =>
      let (c, w) := createForProtocol w proto newErr setErr
      .ok (.created c .none, w)
  | .createForEngine eng newErr setErr =>
      let ((c, err), w) := createForEngine found w eng newErr setErr
      .ok (.created c err, w)
  | .deleteContext c => ofContext w c (.nothing, w.deleteContext c)
  | .protocol c => ofContext w c (.protocol (protocolOf w c), w)
  | .managedByEventLoopInteractor c => ofContext w c (.bool (w.managed c), w)
  | .setManagedByEventLoopInteractor c b =>
      ofContext w c (.nothing, setManagedByEventLoopInteractor w c b)
  | .manage c => ofInteractor w c (.nothing, manage w c)
  | .unmanage c => ofInteractor w c (.nothing, unmanage w c)
  | .newInteractor =>
      if w.interactor then .error .assertionFailed
      else .ok (.nothing, { w with interactor := true })
  | .deleteInteractor => ofInteractor w none (.nothing, { w with interactor := false })
  | .event g type =>
      match w.gpgme.object g with
      | none => .error .impossible
      | some ⟨_, none⟩ => .ok (.nothing, w)
      | some ⟨_, some data⟩ => eventIOCb w data type

end Functions

/-! ## What goes wrong -/

/-- A function returns without what it made. -/
def Op.Leaks (found : Capability → Bool) : Op → Prop
  | .createForProtocol .unknownProtocol newErr _ => newErr.mErr = 0
  | .createForEngine .assuanEngine newErr _ => newErr.mErr = 0 ∧ found .assuanEngine = false
  | .createForEngine .g13Engine newErr _ => newErr.mErr = 0 ∧ found .g13Vfs = false
  | .createForEngine _ newErr _ => newErr.mErr = 0
  | _ => False

instance (found : Capability → Bool) : DecidablePred (Op.Leaks found) := fun op => by
  unfold Op.Leaks
  split <;> infer_instance

/-- The interactor is destroyed while it manages a context. -/
def Op.Abandons (w : World) (op : Op) : Prop :=
  op = .deleteInteractor ∧ ∃ c, w.managed c = true

end Gpgmepp.LifeCycle
