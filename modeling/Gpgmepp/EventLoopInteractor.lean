import Gpgmepp.Error
import Gpgmepp.Lib.Run
import Mathlib.Data.List.Basic
import Mathlib.Data.List.Perm.Basic

/-!
# The registry of an `EventLoopInteractor`

gpgme registers callbacks for file descriptors, the event loop reports activity on a
descriptor with `actOn`, and then the callback is run.  It may register and remove
callbacks, its own too, while `actOn` is at work.

The machine below takes the calls one by one, in any order: between an `actOn` that runs a
callback and the event that the callback returns come the calls that it makes.  `actOn` is
done when the callback returns and does not look at the registry again.

The tag of a registration is the address of an object that lives until the registration is
removed.  What the registry should hold is said by the history alone, `notYetRemoved`.

## Main definitions

* `OneFD`, `Registered` — an entry of the registry, and its place in memory.
* `registerIOCb`, `removeIOCb`, `actOn` — the functions of the source.
* `step` — an interactor at work, as a machine.
* `notYetRemoved` — the registrations of a history that have not been removed.
* `CallLaw` — what a call does to the registry, and what it calls.
* `registryLaw` — the law of the registry, over every run.
-/

namespace Gpgmepp.EventLoopInteractor

open StateMachine

/-- `void *`, and pointers to functions. -/
abbrev Pointer := ℕ

/-- `Direction`. -/
inductive Direction | read | write
  deriving DecidableEq, Repr

/-- `Private::OneFD`. -/
structure OneFD where
  fd : Int32
  dir : Int32
  fnc : Pointer
  fncData : Pointer
  externalTag : Pointer

/-- A pointer to a `OneFD`, and what it points to. -/
structure Registered where
  address : Pointer
  object : OneFD

/-- `dir ? Read : Write`. -/
def direction (dir : Int32) : Direction := if dir = 0 then .write else .read

/-- An interactor: its registry, and the entries whose callbacks are running, each on behalf
of an `actOn`, the innermost first. -/
structure State where
  mCallbacks : List Registered
  running : List Registered

/-- What a call returns, and the virtual functions and callbacks that it calls. -/
structure Output where
  /-- The `gpgme_error_t` returned. -/
  err : Error
  /-- What is written to `*r_tag`. -/
  tag : Option Pointer
  /-- The call of `registerWatcher`. -/
  watched : Option (Int32 × Direction)
  /-- The calls of `unregisterWatcher`. -/
  unwatched : List Pointer
  /-- The entry whose callback is run. -/
  called : Option Registered

/-- A call that returns nothing and calls nothing. -/
def Output.nothing : Output := ⟨.none, none, none, [], none⟩

/-- What cannot happen: memory that is in use is allocated again, or a callback returns that
is not running. -/
inductive Impossible | inUse | notRunning

section Functions
variable [LibGpgError]

/-- `registerIOCb`, with the answers of `registerWatcher`, `ok` and `etag`, and of `new`. -/
def registerIOCb (s : State) (fd dir : Int32) (fnc fncData : Pointer) (rTag ok : Bool)
    (etag address : Pointer) : Except Impossible (Output × State) :=
  let watched := some (fd, direction dir)
  if ok = false then .ok ({ Output.nothing with err := .fromCode .general, watched }, s)
  else if s.mCallbacks.any (·.address = address) then .error .inUse
  else
    .ok ({ Output.nothing with tag := if rTag then some address else none, watched },
      { s with mCallbacks := s.mCallbacks ++ [⟨address, fd, dir, fnc, fncData, etag⟩] })

/-- `removeIOCb`: the first entry with the tag is removed. -/
def removeIOCb (s : State) (tag : Pointer) : Output × State :=
  match s.mCallbacks.find? (·.address = tag) with
  | none => (.nothing, s)
  | some e =>
      ({ Output.nothing with unwatched := [e.object.externalTag] },
        { s with mCallbacks := s.mCallbacks.eraseP (·.address = tag) })

/-- `actOn`: the callback of the first entry that matches is run. -/
def actOn (s : State) (fd : Int32) (dir : Direction) : Output × State :=
  match s.mCallbacks.find? fun e => e.object.fd = fd ∧ direction e.object.dir = dir with
  | none => (.nothing, s)
  | some e => ({ Output.nothing with called := some e }, { s with running := e :: s.running })

/-- A call from outside, or from a callback that is running, or the end of a callback. -/
inductive Event
  | registerIOCb (fd dir : Int32) (fnc fncData : Pointer) (rTag ok : Bool)
      (etag address : Pointer)
  | removeIOCb (tag : Pointer)
  | actOn (fd : Int32) (dir : Direction)
  | callbackReturns
  deriving DecidableEq

/-- An interactor at work. -/
def step (s : State) : Event → Except Impossible (Output × State)
  | .registerIOCb fd dir fnc fncData rTag ok etag address =>
      registerIOCb s fd dir fnc fncData rTag ok etag address
  | .removeIOCb tag => .ok (removeIOCb s tag)
  | .actOn fd dir => .ok (actOn s fd dir)
  | .callbackReturns =>
      -- `break` leaves the loop of `actOn`
      match s.running with
      | [] => .error .notRunning
      | _ :: running => .ok (.nothing, { s with running })

end Functions

/-- An interactor without registrations. -/
def State.init : State := ⟨[], []⟩

/-! ## What the registry should hold -/

/-- A registration, as its caller and `registerWatcher` know it. -/
structure Registration where
  tag : Pointer
  fd : Int32
  direction : Direction
  fnc : Pointer
  fncData : Pointer
  watcher : Pointer
  deriving DecidableEq

/-- The direction that the caller of `registerIOCb` asks for: `0` is for writing, and anything
else for reading. -/
def asked (dir : Int32) : Direction := if dir ≠ 0 then .read else .write

/-- The registration that an entry of the registry stands for. -/
def Registered.registration (e : Registered) : Registration :=
  ⟨e.address, e.object.fd, asked e.object.dir, e.object.fnc, e.object.fncData,
    e.object.externalTag⟩

/-- A completed call. -/
abbrev Called := Transition State Event Output

/-- The registration that a call makes: one that `registerWatcher` accepted, for what the caller
asks for. -/
def registered (t : Called) : Option Registration :=
  match t.input with
  | .registerIOCb fd dir fnc fncData _ true etag address =>
      some ⟨address, fd, asked dir, fnc, fncData, etag⟩
  | _ => none

/-- The call removes the tag. -/
def removes (tag : Pointer) (t : Called) : Bool := t.input = .removeIOCb tag

/-- The registrations of a history that have not been removed since, in their order. -/
def notYetRemoved : List Called → List Registration
  | [] => []
  | t :: ts =>
      match registered t with
      | some r => if ts.any (removes r.tag) then notYetRemoved ts else r :: notYetRemoved ts
      | none => notYetRemoved ts

/-- The registrations that the registry holds. -/
def State.registry (s : State) : List Registration := s.mCallbacks.map Registered.registration

section Law
variable [LibGpgError]

/-- What a call should do to the registry, and what it should return and call. -/
def CallLaw (t : Called) : Prop :=
  match t.input with
  | .registerIOCb fd dir fnc fncData rTag ok etag address =>
      t.output.watched = some (fd, asked dir) ∧
      t.output.unwatched = [] ∧ t.output.called = none ∧
      if ok then
        t.output.err = .none ∧ t.output.tag = (if rTag then some address else none) ∧
        (∀ r ∈ t.source.registry, r.tag ≠ address) ∧
        t.target.registry =
          t.source.registry ++ [⟨address, fd, asked dir, fnc, fncData, etag⟩]
      else
        t.output.err = .fromCode .general ∧ t.output.err.toBool ∧ t.output.tag = none ∧
        t.target.registry = t.source.registry
  | .removeIOCb tag =>
      ((∀ r ∈ t.source.registry, r.tag ≠ tag) ∧
        t.target.registry = t.source.registry ∧ t.output = .nothing) ∨
      ∃ l₁ r l₂, t.source.registry = l₁ ++ r :: l₂ ∧ r.tag = tag ∧
        (∀ x ∈ l₁ ++ l₂, x.tag ≠ tag) ∧ t.target.registry = l₁ ++ l₂ ∧
        t.output = { Output.nothing with unwatched := [r.watcher] }
  | .actOn fd dir =>
      ∃ called, t.output = { Output.nothing with called } ∧
        called.map Registered.registration =
          t.source.registry.find? (fun r => r.fd = fd ∧ r.direction = dir) ∧
        t.target.registry = t.source.registry
  | .callbackReturns => t.output = .nothing ∧ t.target.registry = t.source.registry

end Law

/-! ## The law -/

/-- The source takes the direction that was asked for. -/
theorem direction_eq (dir : Int32) : direction dir = asked dir := by
  rw [direction, asked, ite_not]

@[simp] theorem registration_tag (e : Registered) : e.registration.tag = e.address := rfl

/-- One more call: what it removes goes, and what it registers comes last. -/
theorem notYetRemoved_concat (ts : List Called) (t : Called) :
    notYetRemoved (ts ++ [t]) =
      (notYetRemoved ts).filter (fun r => !removes r.tag t) ++ (registered t).toList := by
  induction ts with
  | nil => cases h : registered t <;> simp [notYetRemoved, h]
  | cons u ts ih =>
      cases h : registered u with
      | none => simp [notYetRemoved, h, ih]
      | some r =>
          simp only [List.cons_append, notYetRemoved, h, List.any_append, List.any_cons,
            List.any_nil, Bool.or_false, Bool.or_eq_true]
          by_cases hts : ts.any (removes r.tag)
          · simp [hts, ih]
          · by_cases ht : removes r.tag t <;> simp [hts, ht, ih]

/-- A call that removes nothing. -/
theorem notYetRemoved_concat_of {t : Called} (ts : List Called)
    (h : ∀ tag, t.input ≠ .removeIOCb tag) :
    notYetRemoved (ts ++ [t]) = notYetRemoved ts ++ (registered t).toList := by
  rw [notYetRemoved_concat, List.filter_eq_self.mpr]
  intro r _
  simp [removes, h]

/-- Where all tags differ, the first entry with a tag is the only one. -/
theorem eraseP_eq_append {l₁ l₂ : List Registered} {e : Registered}
    (h : ((l₁ ++ e :: l₂).map Registered.address).Nodup) :
    (∀ x ∈ l₁ ++ l₂, x.address ≠ e.address) ∧
      (l₁ ++ e :: l₂).eraseP (·.address = e.address) = l₁ ++ l₂ := by
  have hperm : (l₁ ++ e :: l₂).Perm (e :: (l₁ ++ l₂)) := List.perm_middle
  have hne : ∀ x ∈ l₁ ++ l₂, x.address ≠ e.address := by
    have hnodup := (hperm.map Registered.address).nodup_iff.mp h
    intro x hx heq
    exact (List.nodup_cons.mp hnodup).1 (heq ▸ List.mem_map_of_mem hx)
  refine ⟨hne, ?_⟩
  rw [List.eraseP_append_right]
  · simp
  · intro x hx
    simpa using hne x (by simp [hx])

section Steps
variable [LibGpgError]

/-- No two entries have one address. -/
def State.Distinct (s : State) : Prop := (s.mCallbacks.map Registered.address).Nodup

omit [LibGpgError] in
theorem distinct_init : State.init.Distinct := List.nodup_nil

theorem callLaw_removeIOCb {s : State} (hs : s.Distinct) (tag : Pointer) :
    CallLaw ⟨s, .removeIOCb tag, (removeIOCb s tag).1, (removeIOCb s tag).2⟩ ∧
      (removeIOCb s tag).2.Distinct := by
  simp only [removeIOCb]
  cases hfind : s.mCallbacks.find? (·.address = tag) with
  | none =>
      refine ⟨.inl ⟨?_, rfl, rfl⟩, hs⟩
      simpa [State.registry] using hfind
  | some e =>
      obtain ⟨htag, l₁, l₂, hl, -⟩ := List.find?_eq_some_iff_append.mp hfind
      obtain rfl : e.address = tag := by simpa using htag
      obtain ⟨hne, herase⟩ := eraseP_eq_append (by rw [← hl]; exact hs)
      rw [hl, herase]
      refine ⟨.inr ⟨l₁.map Registered.registration, e.registration,
        l₂.map Registered.registration, by simp [State.registry, hl], rfl, ?_, ?_, rfl⟩, ?_⟩
      · intro r hr
        rw [← List.map_append] at hr
        obtain ⟨x, hx, rfl⟩ := List.mem_map.mp hr
        exact hne x hx
      · simp [State.registry]
      · have hsub : (l₁ ++ l₂).Sublist s.mCallbacks := by simp [hl]
        exact hs.sublist (hsub.map _)

theorem callLaw_actOn {s : State} (hs : s.Distinct) (fd : Int32) (dir : Direction) :
    CallLaw ⟨s, .actOn fd dir, (actOn s fd dir).1, (actOn s fd dir).2⟩ ∧
      (actOn s fd dir).2.Distinct := by
  have hfind : s.registry.find? (fun r => r.fd = fd ∧ r.direction = dir) =
      (s.mCallbacks.find? fun e => e.object.fd = fd ∧ direction e.object.dir = dir).map
        Registered.registration := by
    simp only [direction_eq]
    exact List.find?_map ..
  simp only [CallLaw, actOn, hfind]
  cases s.mCallbacks.find? fun e => e.object.fd = fd ∧ direction e.object.dir = dir with
  | none => exact ⟨⟨none, rfl, rfl, rfl⟩, hs⟩
  | some e => exact ⟨⟨some e, rfl, rfl, rfl⟩, hs⟩

/-- **Every call** does what it should, and keeps the addresses distinct. -/
theorem callLaw_of_step {s s' : State} {e : Event} {o : Output} (hs : s.Distinct)
    (h : step s e = .ok (o, s')) : CallLaw ⟨s, e, o, s'⟩ ∧ s'.Distinct := by
  cases e with
  | registerIOCb fd dir fnc fncData rTag ok etag address =>
      simp only [step, registerIOCb] at h
      cases ok with
      | false =>
          obtain ⟨rfl, rfl⟩ := Prod.mk.inj (Except.ok.inj h)
          refine ⟨⟨?_, rfl, rfl, rfl, Error.toBool_fromCode (by simp) (by simp), rfl, rfl⟩, hs⟩
          rw [← direction_eq]
      | true =>
        simp only [Bool.true_eq_false, if_false] at h
        split at h
        · cases h
        next huse =>
        obtain ⟨rfl, rfl⟩ := Prod.mk.inj (Except.ok.inj h)
        have hfree : ∀ x ∈ s.mCallbacks, x.address ≠ address := by simpa using huse
        refine ⟨⟨by rw [← direction_eq], rfl, rfl, rfl, rfl, ?_, ?_⟩, ?_⟩
        · simpa [State.registry] using hfree
        · simp [State.registry, Registered.registration]
        · simpa [State.Distinct, List.nodup_append, hs] using ⟨hs, hfree⟩
  | removeIOCb tag =>
      obtain ⟨rfl, rfl⟩ := Prod.mk.inj (Except.ok.inj h)
      exact callLaw_removeIOCb hs tag
  | actOn fd dir =>
      obtain ⟨rfl, rfl⟩ := Prod.mk.inj (Except.ok.inj h)
      exact callLaw_actOn hs fd dir
  | callbackReturns =>
      simp only [step] at h
      cases hrunning : s.running with
      | nil => simp [hrunning] at h
      | cons _ running =>
          simp only [hrunning] at h
          obtain ⟨rfl, rfl⟩ := Prod.mk.inj (Except.ok.inj h)
          exact ⟨⟨rfl, rfl⟩, hs⟩

/-- A call that does what it should keeps the registry and the history together. -/
theorem CallLaw.registry_eq {t : Called} {ts : List Called} (h : CallLaw t)
    (hts : t.source.registry = notYetRemoved ts) :
    t.target.registry = notYetRemoved (ts ++ [t]) := by
  obtain ⟨s, e, o, s'⟩ := t
  cases e with
  | registerIOCb fd dir fnc fncData rTag ok etag address =>
      obtain ⟨-, -, -, h⟩ := h
      rw [notYetRemoved_concat_of ts (by simp), ← hts]
      cases ok with
      | false => simpa [registered] using h.2.2.2
      | true => simpa [registered] using h.2.2.2
  | removeIOCb tag =>
      have hremoves : ∀ r : Registration, removes r.tag (⟨s, .removeIOCb tag, o, s'⟩ : Called) =
          decide (r.tag = tag) := by
        intro r
        simp [removes, eq_comm]
      rw [notYetRemoved_concat, ← hts]
      simp only [hremoves, registered, Option.toList_none, List.append_nil]
      rcases h with ⟨hnot, htarget, -⟩ | ⟨l₁, r, l₂, hl, htag, hne, htarget, -⟩
      · rw [htarget, List.filter_eq_self.mpr]
        simpa using hnot
      · have hkeep : (l₁ ++ l₂).filter (fun r => !decide (r.tag = tag)) = l₁ ++ l₂ :=
          List.filter_eq_self.mpr (by simpa using hne)
        simp only at hl
        rw [htarget, hl, ← hkeep]
        simp [htag]
  | actOn fd dir =>
      obtain ⟨called, rfl, -, htarget⟩ := h
      rw [notYetRemoved_concat_of ts (by simp), htarget, hts]
      simp [registered]
  | callbackReturns =>
      rw [notYetRemoved_concat_of ts (by simp), h.2, hts]
      simp [registered]

/-- A call that does what it should loses no watcher and makes none up: those that it
unregisters and those of the registrations left are those there were and the one it
registered. -/
theorem CallLaw.watchers {t : Called} (h : CallLaw t) :
    (t.output.unwatched ++ t.target.registry.map Registration.watcher).Perm
      ((t.source.registry ++ (registered t).toList).map Registration.watcher) := by
  obtain ⟨s, e, o, s'⟩ := t
  cases e with
  | registerIOCb fd dir fnc fncData rTag ok etag address =>
      obtain ⟨-, hunwatched, -, h⟩ := h
      simp only at hunwatched
      cases ok with
      | false =>
          have htarget : s'.registry = s.registry := h.2.2.2
          simp [registered, hunwatched, htarget]
      | true =>
          have htarget := h.2.2.2
          simp only at htarget
          simp [registered, hunwatched, htarget]
  | removeIOCb tag =>
      rcases h with ⟨-, htarget, rfl⟩ | ⟨l₁, r, l₂, hl, -, -, htarget, rfl⟩
      · simp only at htarget
        simp [registered, htarget, Output.nothing]
      · simp only at hl htarget
        simp only [htarget, hl, registered, Option.toList_none, List.append_nil, List.map_append,
          List.map_cons, List.singleton_append]
        exact List.perm_middle.symm
  | actOn fd dir =>
      obtain ⟨called, rfl, -, htarget⟩ := h
      simp only at htarget
      simp [registered, htarget, Output.nothing]
  | callbackReturns =>
      obtain ⟨rfl, htarget⟩ := h
      simp only at htarget
      simp [registered, htarget, Output.nothing]

/-- After every run the registry is what the history says it should be. -/
theorem registry_eq {ts : List Called} {s : State} (hrun : Run step .init ts s) :
    s.registry = notYetRemoved ts ∧ s.Distinct := by
  refine hrun.history (fun ts s => s.registry = notYetRemoved ts ∧ s.Distinct)
    ⟨rfl, distinct_init⟩ ?_
  rintro ts m i o m' - ⟨hm, hdistinct⟩ hstep
  obtain ⟨hlaw, hdistinct'⟩ := callLaw_of_step hdistinct hstep
  exact ⟨hlaw.registry_eq hm, hdistinct'⟩

/-- In every run, the watchers unregistered and those of the registrations left are the
watchers registered, each as often. -/
theorem watchers_perm {ts : List Called} {s : State} (hrun : Run step .init ts s) :
    (ts.flatMap (·.output.unwatched) ++ s.registry.map Registration.watcher).Perm
      ((ts.filterMap registered).map Registration.watcher) := by
  refine hrun.history (fun ts s => (ts.flatMap (·.output.unwatched) ++
    s.registry.map Registration.watcher).Perm ((ts.filterMap registered).map _))
    (by simp [State.registry, State.init]) ?_
  intro ts m i o m' hts ih hstep
  have hlaw := (callLaw_of_step (registry_eq hts).2 hstep).1
  have hone := hlaw.watchers
  have hlast : ∀ t : Called, [t].filterMap registered = (registered t).toList := by
    intro t
    cases h : registered t <;> simp [h]
  simp only [List.flatMap_append, List.filterMap_append, List.flatMap_singleton, hlast,
    List.append_assoc, List.map_append] at hone ⊢
  refine (hone.append_left _).trans ?_
  rw [← List.append_assoc]
  exact ih.append_right _

/-- What should be seen of a history that ends in a state. -/
structure RegistryLaw (ts : List Called) (s : State) : Prop where
  registry : s.registry = notYetRemoved ts
  /-- Every call starts from the registrations not yet removed and leaves those that are not
  removed then. -/
  calls : ∀ pre t post, ts = pre ++ t :: post →
    CallLaw t ∧ t.source.registry = notYetRemoved pre ∧
      t.target.registry = notYetRemoved (pre ++ [t])
  /-- Each watcher is unregistered once, or its registration is still there. -/
  watchers : (ts.flatMap (·.output.unwatched) ++ s.registry.map Registration.watcher).Perm
    ((ts.filterMap registered).map Registration.watcher)

/-- **The law of the registry**, over every run. -/
theorem registryLaw {ts : List Called} {s : State} (hrun : Run step .init ts s) :
    RegistryLaw ts s where
  registry := (registry_eq hrun).1
  calls := by
    rintro pre t post rfl
    obtain ⟨hpre, hstep, -⟩ := hrun.cut
    obtain ⟨hregistry, hdistinct⟩ := registry_eq hpre
    have hlaw := (callLaw_of_step hdistinct hstep).1
    exact ⟨hlaw, hregistry, hlaw.registry_eq hregistry⟩
  watchers := watchers_perm hrun

omit [LibGpgError] in
/-- A callback removes itself and registers another for its descriptor, at the same
address; its descriptor is watched for writing, too. -/
theorem registryLaw_reentrant :
    letI := LibGpgError.documented
    ∃ ts s, ts.map Transition.input =
        [.registerIOCb 3 0 12 22 true true 6 99, .registerIOCb 3 1 10 20 true true 7 100,
          .actOn 3 .read, .removeIOCb 100, .registerIOCb 3 1 11 21 true true 8 100,
          .callbackReturns] ∧
      ts.flatMap (·.output.unwatched) = [7] ∧
      s.registry = [⟨99, 3, .write, 12, 22, 6⟩, ⟨100, 3, .read, 11, 21, 8⟩] ∧
      RegistryLaw ts s := by
  let := LibGpgError.documented
  exact ⟨_, _, rfl, rfl, rfl, registryLaw (.cons rfl (.cons rfl (.cons rfl (.cons rfl
    (.cons rfl (.cons rfl (.nil _)))))))⟩

end Steps

end Gpgmepp.EventLoopInteractor
