import Gpgmepp.EventLoopInteractor

/-!
# The notifiers of the Qt interactor

The interactor of QGpgME has a `QSocketNotifier` for each registration.  Qt tells it of activity on
a descriptor through an enabled notifier, and the slot disables that notifier, runs `actOn`, and
enables it again.  The callback may return to the event loop, so other slots may be called while
one is at work; and it may remove its own registration, which deletes the notifier, but later.  The
slot finds out by a `QPointer`, which forgets an object that is deleted.

What Qt does is any of the events below, in any order.

## Main definitions

* `QSocketNotifier`, `QDisabler`, `Interactor` — the notifiers, and what slots have on the stack.
* `registerWatcher`, `unregisterWatcher`, `slotActivity` — the functions of the source.
* `step` — an interactor, its callers, and the event loop.
* `Stepped` — the cases of a step.
* `refinesRegistry` — the interactor is an `EventLoopInteractor`.
-/

namespace Gpgmepp.QGpgME

open StateMachine
open Gpgmepp.EventLoopInteractor (Pointer Direction OneFD Registered Output direction State Called
  RegistryLaw registryLaw)

/-- `QSocketNotifier`. -/
structure QSocketNotifier where
  fd : Int32
  dir : Direction
  isEnabled : Bool
  /-- `deleteLater` was called. -/
  deleteLater : Bool

/-- `QDisabler`. -/
structure QDisabler where
  /-- A `QPointer`, null if the notifier was deleted. -/
  o : Option Pointer
  wasEnabled : Bool

/-- An interactor, and the notifiers that are in memory. -/
structure Interactor where
  state : State
  notifiers : Pointer → Option QSocketNotifier
  /-- Those of the slots that are at work, the innermost first. -/
  disablers : List QDisabler

/-- An interactor without registrations. -/
def Interactor.init : Interactor := ⟨.init, fun _ => none, []⟩

/-- What happens. -/
inductive Event
  /-- gpgme registers a callback; the addresses are those of the new notifier and `OneFD`. -/
  | registerIOCb (fd dir : Int32) (fnc fncData : Pointer) (rTag : Bool) (watcher address : Pointer)
  | removeIOCb (tag : Pointer)
  /-- Qt tells of activity by the notifier. -/
  | activated (watcher : Pointer)
  | callbackReturns
  /-- Qt deletes a notifier for which `deleteLater` was called. -/
  | deleted (watcher : Pointer)
  deriving DecidableEq

/-- Why there is no step. -/
inductive Failure
  /-- A notifier is used that is not in memory. -/
  | dangling
  /-- What neither gpgme nor Qt nor `new` does. -/
  | impossible
  deriving DecidableEq

namespace Interactor

/-- `QSocketNotifier::setEnabled`. -/
def setEnabled (s : Interactor) (p : Pointer) (b : Bool) : Interactor :=
  { s with
    notifiers := Function.update s.notifiers p
      ((s.notifiers p).map fun n => { n with isEnabled := b }) }

/-- `~QDisabler`. -/
def enable (s : Interactor) (d : QDisabler) : Interactor :=
  match d.o with
  | none => s
  | some p => s.setEnabled p d.wasEnabled

/-- `registerWatcher`, which always succeeds. -/
def registerWatcher (s : Interactor) (fd : Int32) (dir : Direction) (watcher : Pointer) :
    Except Failure Interactor :=
  if (s.notifiers watcher).isSome then .error .impossible
  else
    .ok { s with notifiers := Function.update s.notifiers watcher (some ⟨fd, dir, true, false⟩) }

/-- `unregisterWatcher`. -/
def unregisterWatcher (s : Interactor) (tag : Pointer) : Except Failure Interactor :=
  match s.notifiers tag with
  | none => .error .dangling
  | some n =>
      .ok { s with
        notifiers := Function.update s.notifiers tag (some { n with deleteLater := true }) }

/-- `slotReadActivity` and `slotWriteActivity`, called by the notifier at `p`, up to the call of the
callback or to the end if there is none. -/
def slotActivity (s : Interactor) (p : Pointer) (n : QSocketNotifier) : Output × Interactor :=
  let disabled : QDisabler := ⟨some p, n.isEnabled⟩
  let acted := EventLoopInteractor.actOn s.state n.fd n.dir
  let s := { s.setEnabled p false with state := acted.2 }
  match acted.1.called with
  | none => (acted.1, s.enable disabled)
  | some _ => (acted.1, { s with disablers := disabled :: s.disablers })

/-- A pointer to a notifier that is deleted is forgotten. -/
def forget (p : Pointer) (d : QDisabler) : QDisabler :=
  if d.o = some p then { d with o := none } else d

/-- The notifier at `p` is deleted. -/
def delete (s : Interactor) (p : Pointer) : Interactor :=
  { s with
    notifiers := Function.update s.notifiers p none
    disablers := s.disablers.map (forget p) }

end Interactor

open Interactor

section Machine
variable [LibGpgError]

/-- One event. -/
def step (s : Interactor) : Event → Except Failure (Output × Interactor)
  | .registerIOCb fd dir fnc fncData rTag watcher address =>
      match s.registerWatcher fd (direction dir) watcher with
      | .error f => .error f
      | .ok s =>
          match EventLoopInteractor.registerIOCb s.state fd dir fnc fncData rTag true watcher
              address with
          | .error _ => .error .impossible
          | .ok (o, state) => .ok (o, { s with state })
  | .removeIOCb tag =>
      let removed := EventLoopInteractor.removeIOCb s.state tag
      match removed.1.unwatched.foldlM unregisterWatcher s with
      | .error f => .error f
      | .ok s => .ok (removed.1, { s with state := removed.2 })
  | .activated p =>
      match s.notifiers p with
      | none => .error .impossible
      | some n => if n.isEnabled then .ok (s.slotActivity p n) else .error .impossible
  | .callbackReturns =>
      match s.disablers, s.state.running with
      | d :: disablers, _ :: running =>
          .ok (.nothing, { s with disablers, state := { s.state with running } }.enable d)
      | _, _ => .error .impossible
  | .deleted p =>
      match s.notifiers p with
      | none => .error .impossible
      | some n => if n.deleteLater then .ok (.nothing, s.delete p) else .error .impossible

end Machine

/-! ## What a step does -/

@[simp] theorem setEnabled_setEnabled (s : Interactor) (p : Pointer) (b c : Bool) :
    (s.setEnabled p b).setEnabled p c = s.setEnabled p c := by
  simp [setEnabled, Function.comp_def]

theorem setEnabled_self {s : Interactor} {p : Pointer} {n : QSocketNotifier}
    (hn : s.notifiers p = some n) : s.setEnabled p n.isEnabled = s := by
  have heq : Function.update s.notifiers p ((s.notifiers p).map fun m =>
      { m with isEnabled := n.isEnabled }) = s.notifiers := by
    rw [hn]
    exact Function.update_eq_self_iff.mpr hn.symm
  rw [setEnabled, heq]

/-- The entry whose callback `actOn` runs. -/
def Interactor.entryFor (s : Interactor) (n : QSocketNotifier) : Option Registered :=
  s.state.mCallbacks.find? fun e => e.object.fd = n.fd ∧ direction e.object.dir = n.dir

/-- A step, by its cases. -/
inductive Stepped (s : Interactor) : Event → Output → Interactor → Prop
  | registerIOCb {fd dir : Int32} {fnc fncData : Pointer} {rTag : Bool} {watcher address : Pointer}
      (hwatcher : s.notifiers watcher = none)
      (haddress : ∀ x ∈ s.state.mCallbacks, x.address ≠ address) :
      Stepped s (.registerIOCb fd dir fnc fncData rTag watcher address)
        { Output.nothing with
          tag := if rTag then some address else none
          watched := some (fd, direction dir) }
        { s with
          notifiers :=
            Function.update s.notifiers watcher (some ⟨fd, direction dir, true, false⟩)
          state :=
            { s.state with
              mCallbacks := s.state.mCallbacks ++
                [⟨address, fd, dir, fnc, fncData, watcher⟩] } }
  | notRegistered {tag : Pointer} (hfind : s.state.mCallbacks.find? (·.address = tag) = none) :
      Stepped s (.removeIOCb tag) .nothing s
  | removeIOCb {tag : Pointer} {e : Registered} {n : QSocketNotifier}
      (hfind : s.state.mCallbacks.find? (·.address = tag) = some e)
      (hn : s.notifiers e.object.externalTag = some n) :
      Stepped s (.removeIOCb tag) { Output.nothing with unwatched := [e.object.externalTag] }
        { s with
          notifiers := Function.update s.notifiers e.object.externalTag
            (some { n with deleteLater := true })
          state := { s.state with mCallbacks := s.state.mCallbacks.eraseP (·.address = tag) } }
  | idle {p : Pointer} {n : QSocketNotifier} (hn : s.notifiers p = some n)
      (henabled : n.isEnabled = true) (hfind : s.entryFor n = none) :
      Stepped s (.activated p) .nothing s
  | actOn {p : Pointer} {n : QSocketNotifier} {e : Registered} (hn : s.notifiers p = some n)
      (henabled : n.isEnabled = true) (hfind : s.entryFor n = some e) :
      Stepped s (.activated p) { Output.nothing with called := some e }
        { s.setEnabled p false with
          state := { s.state with running := e :: s.state.running }
          disablers := ⟨some p, true⟩ :: s.disablers }
  | callbackReturns {d : QDisabler} {ds : List QDisabler} {e : Registered} {es : List Registered}
      (hds : s.disablers = d :: ds) (hes : s.state.running = e :: es) :
      Stepped s .callbackReturns .nothing
        ({ s with disablers := ds, state := { s.state with running := es } }.enable d)
  | deleted {p : Pointer} {n : QSocketNotifier} (hn : s.notifiers p = some n)
      (hlater : n.deleteLater = true) : Stepped s (.deleted p) .nothing (s.delete p)

section Steps
variable [LibGpgError] {s s' : Interactor} {e : Event} {o : Output}

theorem stepped_of_step (h : step s e = .ok (o, s')) : Stepped s e o s' := by
  cases e with
  | registerIOCb fd dir fnc fncData rTag watcher address =>
      simp only [step, registerWatcher] at h
      cases hwatcher : s.notifiers watcher with
      | some n => simp [hwatcher] at h
      | none =>
          simp only [hwatcher, Option.isSome_none, Bool.false_eq_true, if_false,
            EventLoopInteractor.registerIOCb, Bool.true_eq_false] at h
          by_cases huse : s.state.mCallbacks.any (·.address = address) = true
          · simp [huse] at h
          · rw [if_neg huse] at h
            obtain ⟨rfl, rfl⟩ := Prod.mk.inj (Except.ok.inj h)
            exact .registerIOCb hwatcher (by simpa using huse)
  | removeIOCb tag =>
      simp only [step, EventLoopInteractor.removeIOCb] at h
      cases hfind : s.state.mCallbacks.find? (·.address = tag) with
      | none =>
          simp only [hfind, Output.nothing, List.foldlM_nil] at h
          obtain ⟨rfl, rfl⟩ := Prod.mk.inj (Except.ok.inj h)
          exact .notRegistered hfind
      | some e =>
          simp only [hfind, List.foldlM_cons, List.foldlM_nil, unregisterWatcher] at h
          cases hn : s.notifiers e.object.externalTag with
          | none => simp [hn] at h
          | some n =>
              simp only [hn] at h
              obtain ⟨rfl, rfl⟩ := Prod.mk.inj (Except.ok.inj h)
              exact .removeIOCb hfind hn
  | activated p =>
      simp only [step] at h
      cases hn : s.notifiers p with
      | none => simp [hn] at h
      | some n =>
          cases henabled : n.isEnabled with
          | false => simp [hn, henabled] at h
          | true =>
              simp only [hn, henabled, if_true, slotActivity, EventLoopInteractor.actOn] at h
              cases hfind : s.entryFor n with
              | none =>
                  rw [Interactor.entryFor] at hfind
                  simp only [hfind, Output.nothing] at h
                  obtain ⟨rfl, hs'⟩ := Prod.mk.inj (Except.ok.inj h)
                  -- the notifier is enabled again at once
                  have hback : s = s' := calc
                    s = (s.setEnabled p false).setEnabled p true := by
                      rw [setEnabled_setEnabled, ← henabled, setEnabled_self hn]
                    _ = s' := hs'
                  subst hback
                  exact .idle hn henabled hfind
              | some e =>
                  rw [Interactor.entryFor] at hfind
                  simp only [hfind] at h
                  obtain ⟨rfl, rfl⟩ := Prod.mk.inj (Except.ok.inj h)
                  exact .actOn hn henabled hfind
  | callbackReturns =>
      simp only [step] at h
      cases hds : s.disablers with
      | nil => simp [hds] at h
      | cons d ds =>
          cases hes : s.state.running with
          | nil => simp [hds, hes] at h
          | cons e es =>
              simp only [hds, hes] at h
              obtain ⟨rfl, rfl⟩ := Prod.mk.inj (Except.ok.inj h)
              exact .callbackReturns hds hes
  | deleted p =>
      simp only [step] at h
      cases hn : s.notifiers p with
      | none => simp [hn] at h
      | some n =>
          cases hlater : n.deleteLater with
          | false => simp [hn, hlater] at h
          | true =>
              simp only [hn, hlater, if_true] at h
              obtain ⟨rfl, rfl⟩ := Prod.mk.inj (Except.ok.inj h)
              exact .deleted hn hlater

end Steps

/-! ## The registry -/

/-- A completed step. -/
abbrev Happened := Transition Interactor Event Output

section Laws
variable [LibGpgError] {s s' : Interactor} {ts : List Happened} {o : Output} {p : Pointer}

/-- What the interactor is called for. -/
def Interactor.calls (s : Interactor) : Event → Option EventLoopInteractor.Event
  | .registerIOCb fd dir fnc fncData rTag watcher address =>
      some (.registerIOCb fd dir fnc fncData rTag true watcher address)
  | .removeIOCb tag => some (.removeIOCb tag)
  | .activated p => (s.notifiers p).map fun n => .actOn n.fd n.dir
  | .callbackReturns => some .callbackReturns
  | .deleted _ => none

omit [LibGpgError] in
theorem state_enable (s : Interactor) (d : QDisabler) : (s.enable d).state = s.state := by
  rw [enable]
  split
  · rfl
  · rfl

/-- A step is a step of the interactor that it is called for, or changes nothing there. -/
theorem Stepped.simulates {e : Event} (h : Stepped s e o s') :
    match s.calls e with
    | none => s'.state = s.state
    | some i => EventLoopInteractor.step s.state i = .ok (o, s'.state) := by
  cases h with
  | registerIOCb hwatcher haddress =>
      rename_i fd dir fnc fncData rTag watcher address
      have huse : ¬ s.state.mCallbacks.any (·.address = address) = true := by simpa using haddress
      simp only [Interactor.calls, EventLoopInteractor.step, EventLoopInteractor.registerIOCb,
        Bool.true_eq_false, if_false, if_neg huse]
  | notRegistered hfind =>
      simp only [Interactor.calls, EventLoopInteractor.step, EventLoopInteractor.removeIOCb, hfind]
  | removeIOCb hfind hn =>
      simp only [Interactor.calls, EventLoopInteractor.step, EventLoopInteractor.removeIOCb, hfind]
  | idle hn henabled hfind =>
      rw [Interactor.entryFor] at hfind
      simp only [Interactor.calls, hn, Option.map_some, EventLoopInteractor.step,
        EventLoopInteractor.actOn, hfind]
  | actOn hn henabled hfind =>
      rw [Interactor.entryFor] at hfind
      simp only [Interactor.calls, hn, Option.map_some, EventLoopInteractor.step,
        EventLoopInteractor.actOn, hfind]
  | callbackReturns hds hes =>
      simp only [Interactor.calls, EventLoopInteractor.step, hes, state_enable]
  | deleted hn hlater => rfl

/-- **The Qt interactor is an `EventLoopInteractor`.**  What it is called for, and what it answers
and calls, is a run of the machine of the registry, with watchers that are never refused; so the
law of the registry holds of it. -/
theorem refinesRegistry (h : Run step .init ts s) :
    ∃ us : List Called, Run EventLoopInteractor.step .init us s.state ∧
      us.map (fun u => (u.input, u.output)) =
        ts.filterMap (fun t => (t.source.calls t.input).map fun i => (i, t.output)) ∧
      RegistryLaw us s.state := by
  obtain ⟨us, hrun, hmap⟩ : ∃ us : List Called, Run EventLoopInteractor.step .init us s.state ∧
      us.map (fun u => (u.input, u.output)) =
        ts.filterMap fun t => (t.source.calls t.input).map fun i => (i, t.output) := by
    refine h.history (fun ts s => ∃ us : List Called,
      Run EventLoopInteractor.step .init us s.state ∧ us.map (fun u => (u.input, u.output)) =
        ts.filterMap fun t => (t.source.calls t.input).map fun i => (i, t.output))
      ⟨[], .nil _, rfl⟩ ?_
    rintro ts m e o m' - ⟨us, hrun, hmap⟩ hstep
    have hrefines := (stepped_of_step hstep).simulates
    cases hcalls : m.calls e with
    | none =>
        simp only [hcalls] at hrefines
        exact ⟨us, by rw [hrefines]; exact hrun, by simp [hmap, hcalls]⟩
    | some i =>
        simp only [hcalls] at hrefines
        exact ⟨us ++ [⟨m.state, i, o, m'.state⟩], hrun.append (.single hrefines),
          by simp [hmap, hcalls]⟩
  exact ⟨us, hrun, hmap, registryLaw hrun⟩

omit [LibGpgError] in
/-- A callback removes its registration, and its notifier is deleted while it is at work. -/
theorem run_removed :
    letI := LibGpgError.documented
    ∃ (ts : List Happened) (s : Interactor), Run step .init ts s ∧
      ts.map Transition.input = [.registerIOCb 3 1 10 20 true 7 100, .activated 7, .removeIOCb 100,
        .deleted 7, .callbackReturns] ∧ s.notifiers 7 = none := by
  let := LibGpgError.documented
  exact ⟨_, _, .cons rfl (.cons rfl (.cons rfl (.cons rfl (.cons rfl (.nil _))))), rfl, rfl⟩

omit [LibGpgError] in
theorem refinesRegistry_removed :
    letI := LibGpgError.documented
    ∃ (ts : List Happened) (s : Interactor) (us : List Called), Run step .init ts s ∧
      s.notifiers 7 = none ∧ Run EventLoopInteractor.step .init us s.state ∧
      us.map (fun u => (u.input, u.output)) =
        ts.filterMap (fun t => (t.source.calls t.input).map fun i => (i, t.output)) ∧
      RegistryLaw us s.state := by
  let := LibGpgError.documented
  obtain ⟨ts, s, hrun, -, hnone⟩ := run_removed
  obtain ⟨us, hus⟩ := refinesRegistry hrun
  exact ⟨ts, s, us, hrun, hnone, hus⟩

end Laws

end Gpgmepp.QGpgME
