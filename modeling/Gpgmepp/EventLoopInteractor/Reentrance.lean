import Gpgmepp.EventLoopInteractor.Notifiers

/-!
# Re-entrance

A slot of the Qt interactor may be called while another is at work, and a callback may remove what
its slot is at work for.  Still no notifier is used after it was deleted, and none is left disabled
(`notifiersKept`).

A notifier whose registration was removed is deleted later, and may be activated until then.
`actOn` goes by the descriptor and the direction, so it may find the callback of a new registration
for them, even while that is at work.  As long as gpgme does not register for a descriptor and
direction that is still watched, it does not (`notReentered`).

## Main definitions

* `Kept`, `Inv` — what holds after every step.
* `Clashes`, `Apart` — what leads to re-entrance, and what holds without it.
-/

namespace Gpgmepp.QGpgME

open StateMachine Interactor
open Gpgmepp.EventLoopInteractor (Pointer Registered Output direction asked direction_eq)

/-! ## What holds after every step -/

/-- The notifiers whose slots are at work. -/
def Interactor.working (s : Interactor) : List Pointer := s.disablers.filterMap QDisabler.o

/-- The notifier of an entry. -/
abbrev watcherOf (x : Registered) : Pointer := x.object.externalTag

/-- The notifiers are those of the registrations, and some that will be deleted; those whose slots
are at work are disabled, and no others. -/
structure Kept (callbacks : List Registered) (notifiers : Pointer → Option QSocketNotifier)
    (working : List Pointer) : Prop where
  watchers : (callbacks.map watcherOf).Nodup
  registered : ∀ p, (∃ n, notifiers p = some n ∧ n.deleteLater = false) ↔
    ∃ x ∈ callbacks, watcherOf x = p
  watches : ∀ x ∈ callbacks, ∀ n, notifiers (watcherOf x) = some n →
    n.fd = x.object.fd ∧ n.dir = direction x.object.dir
  once : working.Nodup
  there : ∀ p ∈ working, notifiers p ≠ none
  enabled : ∀ p n, notifiers p = some n → (n.isEnabled = true ↔ p ∉ working)

section Kept
variable {callbacks l₁ l₂ : List Registered} {notifiers : Pointer → Option QSocketNotifier}
  {working : List Pointer} {p : Pointer} {n : QSocketNotifier} {x : Registered}

theorem kept_init : Kept [] (fun _ => none) [] where
  watchers := List.nodup_nil
  registered p := by simp
  watches x hx := by cases hx
  once := List.nodup_nil
  there p hp := by cases hp
  enabled p n hn := by cases hn

theorem Kept.register (h : Kept callbacks notifiers working)
    (hp : notifiers (watcherOf x) = none) :
    Kept (callbacks ++ [x])
      (Function.update notifiers (watcherOf x)
        (some ⟨x.object.fd, direction x.object.dir, true, false⟩)) working := by
  have hnew : ∀ y ∈ callbacks, watcherOf y ≠ watcherOf x := by
    intro y hy heq
    obtain ⟨n, hn, -⟩ := (h.registered (watcherOf x)).mpr ⟨y, hy, heq⟩
    rw [hp] at hn
    cases hn
  have hidle : watcherOf x ∉ working := fun hmem => h.there _ hmem hp
  constructor
  case watchers =>
    rw [List.map_append, List.nodup_append]
    refine ⟨h.watchers, List.nodup_singleton _, ?_⟩
    intro a ha b hb
    obtain ⟨y, hy, rfl⟩ := List.mem_map.mp ha
    obtain rfl := List.mem_singleton.mp hb
    exact hnew y hy
  case registered =>
    intro p
    by_cases heq : p = watcherOf x
    · subst heq
      simp
    · rw [Function.update_of_ne heq, h.registered p]
      simp [or_and_right, exists_or, eq_comm, heq]
  case watches =>
    intro y hy n hn
    rcases List.mem_append.mp hy with hy | hy
    · rw [Function.update_of_ne (hnew y hy)] at hn
      exact h.watches y hy n hn
    · obtain rfl := List.mem_singleton.mp hy
      rw [Function.update_self] at hn
      cases hn
      exact ⟨rfl, rfl⟩
  case once => exact h.once
  case there =>
    intro p hmem
    have hne : p ≠ watcherOf x := by
      rintro rfl
      exact hidle hmem
    rw [Function.update_of_ne hne]
    exact h.there p hmem
  case enabled =>
    intro p n hn
    by_cases heq : p = watcherOf x
    · subst heq
      rw [Function.update_self] at hn
      cases hn
      exact iff_of_true rfl hidle
    · rw [Function.update_of_ne heq] at hn
      exact h.enabled p n hn

theorem Kept.remove (h : Kept (l₁ ++ x :: l₂) notifiers working)
    (hn : notifiers (watcherOf x) = some n) :
    Kept (l₁ ++ l₂)
      (Function.update notifiers (watcherOf x) (some { n with deleteLater := true })) working := by
  have hperm : (l₁ ++ x :: l₂).Perm (x :: (l₁ ++ l₂)) := List.perm_middle
  obtain ⟨hother, hnodup⟩ := List.nodup_cons.mp ((hperm.map watcherOf).nodup_iff.mp h.watchers)
  have hmem : ∀ y, y ∈ l₁ ++ x :: l₂ ↔ y = x ∨ y ∈ l₁ ++ l₂ := by
    intro y
    rw [hperm.mem_iff, List.mem_cons]
  have hne : ∀ y ∈ l₁ ++ l₂, watcherOf y ≠ watcherOf x :=
    fun y hy heq => hother (heq ▸ List.mem_map_of_mem hy)
  constructor
  case watchers => exact hnodup
  case registered =>
    intro p
    by_cases heq : p = watcherOf x
    · subst heq
      rw [Function.update_self]
      constructor
      · rintro ⟨m, hm, hlater⟩
        cases hm
        cases hlater
      · rintro ⟨y, hy, heq⟩
        exact absurd heq (hne y hy)
    · rw [Function.update_of_ne heq, h.registered p]
      simp [hmem, or_and_right, exists_or, Ne.symm heq]
  case watches =>
    intro y hy m hm
    rw [Function.update_of_ne (hne y hy)] at hm
    exact h.watches y ((hmem y).mpr (.inr hy)) m hm
  case once => exact h.once
  case there =>
    intro p hp
    by_cases heq : p = watcherOf x
    · simp [heq]
    · rw [Function.update_of_ne heq]
      exact h.there p hp
  case enabled =>
    intro p m hm
    by_cases heq : p = watcherOf x
    · subst heq
      rw [Function.update_self] at hm
      cases hm
      exact h.enabled _ n hn
    · rw [Function.update_of_ne heq] at hm
      exact h.enabled p m hm

/-- A notifier that is enabled or disabled. -/
theorem Kept.setEnabled {working' : List Pointer} {b : Bool} (h : Kept callbacks notifiers working)
    (hn : notifiers p = some n) (hnodup : working'.Nodup)
    (hother : ∀ q, q ≠ p → (q ∈ working' ↔ q ∈ working)) (hp : b = true ↔ p ∉ working') :
    Kept callbacks (Function.update notifiers p (some { n with isEnabled := b })) working' := by
  constructor
  case watchers => exact h.watchers
  case registered =>
    intro q
    rw [← h.registered q]
    by_cases heq : q = p
    · subst heq
      simp [hn]
    · rw [Function.update_of_ne heq]
  case watches =>
    intro y hy m hm
    by_cases heq : watcherOf y = p
    · rw [heq, Function.update_self] at hm
      cases hm
      exact h.watches y hy n (heq ▸ hn)
    · rw [Function.update_of_ne heq] at hm
      exact h.watches y hy m hm
  case once => exact hnodup
  case there =>
    intro q hq
    by_cases heq : q = p
    · simp [heq]
    · rw [Function.update_of_ne heq]
      exact h.there q ((hother q heq).mp hq)
  case enabled =>
    intro q m hm
    by_cases heq : q = p
    · subst heq
      rw [Function.update_self] at hm
      cases hm
      exact hp
    · rw [Function.update_of_ne heq] at hm
      rw [h.enabled q m hm, hother q heq]

theorem Kept.delete (h : Kept callbacks notifiers working) (hn : notifiers p = some n)
    (hlater : n.deleteLater = true) :
    Kept callbacks (Function.update notifiers p none) (working.filter (· ≠ p)) := by
  have hnot : ∀ x ∈ callbacks, watcherOf x ≠ p := by
    intro x hx heq
    obtain ⟨m, hm, hfalse⟩ := (h.registered p).mpr ⟨x, hx, heq⟩
    rw [hn] at hm
    cases hm
    rw [hlater] at hfalse
    cases hfalse
  constructor
  case watchers => exact h.watchers
  case registered =>
    intro q
    by_cases heq : q = p
    · subst heq
      simpa using hnot
    · rw [Function.update_of_ne heq, h.registered q]
  case watches =>
    intro y hy m hm
    rw [Function.update_of_ne (hnot y hy)] at hm
    exact h.watches y hy m hm
  case once => exact h.once.filter _
  case there =>
    intro q hq
    obtain ⟨hmem, hne⟩ := List.mem_filter.mp hq
    rw [Function.update_of_ne (by simpa using hne)]
    exact h.there q hmem
  case enabled =>
    intro q m hm
    by_cases heq : q = p
    · subst heq
      simp at hm
    · rw [Function.update_of_ne heq] at hm
      rw [h.enabled q m hm, List.mem_filter]
      simp [heq]

end Kept

/-- What holds after every step. -/
structure Inv (s : Interactor) : Prop where
  kept : Kept s.state.mCallbacks s.notifiers s.working
  wasEnabled : ∀ d ∈ s.disablers, d.wasEnabled = true
  length : s.disablers.length = s.state.running.length

theorem inv_init : Inv .init := ⟨kept_init, nofun, rfl⟩

theorem filterMap_forget (p : Pointer) (ds : List QDisabler) :
    (ds.map (forget p)).filterMap QDisabler.o = (ds.filterMap QDisabler.o).filter (· ≠ p) := by
  induction ds with
  | nil => rfl
  | cons d ds ih =>
      rw [List.map_cons, List.filterMap_cons, List.filterMap_cons, ih]
      cases ho : d.o with
      | none => simp [forget, ho]
      | some q =>
          by_cases hq : q = p
          · simp [forget, ho, hq]
          · simp [forget, ho, hq]

section Steps
variable {s s' : Interactor} {e : Event} {o : Output}

/-- **Every step** keeps the invariant. -/
theorem Inv.stepped (h : Inv s) (hs : Stepped s e o s') : Inv s' := by
  have hkept := h.kept
  cases hs with
  | registerIOCb hwatcher haddress =>
      rename_i fd dir fnc fncData rTag watcher address
      exact ⟨hkept.register (x := ⟨address, fd, dir, fnc, fncData, watcher⟩) hwatcher,
        h.wasEnabled, h.length⟩
  | notRegistered hfind => exact h
  | removeIOCb hfind hn =>
      rename_i tag x n
      obtain ⟨htag, l₁, l₂, hl, hbefore⟩ := List.find?_eq_some_iff_append.mp hfind
      have herase : s.state.mCallbacks.eraseP (·.address = tag) = l₁ ++ l₂ := by
        rw [hl, List.eraseP_append_right _ (by simpa using hbefore)]
        simp [of_decide_eq_true htag]
      rw [hl] at hkept
      refine ⟨?_, h.wasEnabled, h.length⟩
      simp only [herase]
      exact hkept.remove hn
  | idle hn henabled hfind => exact h
  | actOn hn henabled hfind =>
      rename_i p n x
      have hidle : p ∉ s.working := (hkept.enabled p n hn).mp henabled
      refine ⟨?_, ?_, by simp [h.length]⟩
      · have hnodup : (p :: s.working).Nodup := List.nodup_cons.mpr ⟨hidle, hkept.once⟩
        have hset := hkept.setEnabled (b := false) hn hnodup (fun q hq => by simp [hq]) (by simp)
        simpa [Interactor.setEnabled, hn, Interactor.working] using hset
      · intro d hd
        rcases List.mem_cons.mp hd with rfl | hd
        · rfl
        · exact h.wasEnabled d hd
  | callbackReturns hds hes =>
      rename_i d ds x es
      have hlength : ds.length = es.length := by simpa [hds, hes] using h.length
      have hwas : ∀ c ∈ ds, c.wasEnabled = true :=
        fun c hc => h.wasEnabled c (by simp [hds, hc])
      cases ho : d.o with
      | none =>
          have hworking : s.working = ds.filterMap QDisabler.o := by simp [working, hds, ho]
          rw [hworking] at hkept
          simp only [enable, ho]
          exact ⟨hkept, hwas, hlength⟩
      | some p =>
          have hworking : s.working = p :: ds.filterMap QDisabler.o := by simp [working, hds, ho]
          rw [hworking] at hkept
          obtain ⟨n, hn⟩ := Option.ne_none_iff_exists'.mp (hkept.there p List.mem_cons_self)
          obtain ⟨hidle, hnodup⟩ := List.nodup_cons.mp hkept.once
          have hset := hkept.setEnabled (b := true) hn hnodup (fun q hq => by simp [hq])
            (by simpa using hidle)
          have htrue : d.wasEnabled = true := h.wasEnabled d (by simp [hds])
          simp only [enable, ho, Interactor.setEnabled, hn, htrue, Option.map_some]
          exact ⟨hset, hwas, hlength⟩
  | deleted hn hlater =>
      rename_i p n
      refine ⟨?_, ?_, by simpa [Interactor.delete] using h.length⟩
      · have hdelete := hkept.delete hn hlater
        rw [Interactor.working, ← filterMap_forget] at hdelete
        exact hdelete
      · intro d hd
        obtain ⟨d, hmem, rfl⟩ := List.mem_map.mp hd
        have hwas := h.wasEnabled d hmem
        rw [forget]
        split
        · exact hwas
        · exact hwas

end Steps

/-! ## The laws -/

section Laws
variable [LibGpgError] {s s' : Interactor} {ts : List Happened} {o : Output} {p : Pointer}

theorem inv_of_run (h : Run step .init ts s) : Inv s :=
  h.invariant Inv inv_init fun _ _ _ _ hm hstep => hm.stepped (stepped_of_step hstep)

/-- Where the registrations have notifiers, `unregisterWatcher` finds them. -/
theorem step_ne_dangling
    (hget : ∀ x ∈ s.state.mCallbacks, ∃ n, s.notifiers (watcherOf x) = some n) (e : Event) :
    step s e ≠ .error .dangling := by
  intro hdangling
  cases e with
  | registerIOCb fd dir fnc fncData rTag watcher address =>
      simp only [step, registerWatcher] at hdangling
      cases hn : (s.notifiers watcher).isSome with
      | true => simp [hn] at hdangling
      | false =>
          simp only [hn, Bool.false_eq_true, if_false] at hdangling
          split at hdangling
          · cases hdangling
          · cases hdangling
  | removeIOCb tag =>
      simp only [step, EventLoopInteractor.removeIOCb] at hdangling
      cases hfind : s.state.mCallbacks.find? (·.address = tag) with
      | none =>
          rw [hfind] at hdangling
          cases hdangling
      | some x =>
          obtain ⟨n, hn⟩ := hget x (List.mem_of_find?_eq_some hfind)
          simp only [hfind, List.foldlM_cons, unregisterWatcher, hn] at hdangling
          cases hdangling
  | activated p =>
      simp only [step] at hdangling
      cases hn : s.notifiers p with
      | none => simp [hn] at hdangling
      | some n => cases henabled : n.isEnabled <;> simp [hn, henabled] at hdangling
  | callbackReturns =>
      simp only [step] at hdangling
      split at hdangling
      · cases hdangling
      · cases hdangling
  | deleted p =>
      simp only [step] at hdangling
      cases hn : s.notifiers p with
      | none => simp [hn] at hdangling
      | some n => cases hlater : n.deleteLater <;> simp [hn, hlater] at hdangling

/-- **No notifier is used that is gone, and none is left disabled.**  After every run there is one
notifier for each registration, for its descriptor and direction, and the others that are in memory
will be deleted.  A notifier is disabled exactly as long as its slot is at work, which it is not
twice at a time.  And `unregisterWatcher` finds the notifier that it is called for. -/
theorem notifiersKept (h : Run step .init ts s) :
    (∀ p, (∃ n, s.notifiers p = some n ∧ n.deleteLater = false) ↔
      ∃! x, x ∈ s.state.mCallbacks ∧ watcherOf x = p) ∧
    (∀ x ∈ s.state.mCallbacks, ∃ n, s.notifiers (watcherOf x) = some n ∧ n.fd = x.object.fd ∧
      n.dir = asked x.object.dir) ∧
    s.working.Nodup ∧
    (∀ p n, s.notifiers p = some n → (n.isEnabled = true ↔ p ∉ s.working)) ∧
    ∀ e, step s e ≠ .error .dangling := by
  have hkept := (inv_of_run h).kept
  have hget : ∀ x ∈ s.state.mCallbacks, ∃ n, s.notifiers (watcherOf x) = some n := by
    intro x hx
    obtain ⟨n, hn, -⟩ := (hkept.registered _).mpr ⟨x, hx, rfl⟩
    exact ⟨n, hn⟩
  refine ⟨fun p => ?_, fun x hx => ?_, hkept.once, hkept.enabled, fun e hdangling => ?_⟩
  · rw [hkept.registered p]
    constructor
    · rintro ⟨x, hx, hp⟩
      refine ⟨x, ⟨hx, hp⟩, fun y hy => ?_⟩
      exact List.inj_on_of_nodup_map hkept.watchers hy.1 hx (hy.2.trans hp.symm)
    · rintro ⟨x, hx, -⟩
      exact ⟨x, hx⟩
  · obtain ⟨n, hn⟩ := hget x hx
    obtain ⟨hfd, hdir⟩ := hkept.watches x hx n hn
    exact ⟨n, hn, hfd, hdir.trans (direction_eq _)⟩
  · exact step_ne_dangling hget e hdangling

omit [LibGpgError] in
theorem notifiersKept_removed :
    letI := LibGpgError.documented
    ∃ (ts : List Happened) (s : Interactor), Run step .init ts s ∧ s.notifiers 7 = none ∧
      (∀ p, (∃ n, s.notifiers p = some n ∧ n.deleteLater = false) ↔
        ∃! x, x ∈ s.state.mCallbacks ∧ watcherOf x = p) ∧
      (∀ x ∈ s.state.mCallbacks, ∃ n, s.notifiers (watcherOf x) = some n ∧
        n.fd = x.object.fd ∧ n.dir = asked x.object.dir) ∧
      s.working.Nodup ∧
      (∀ p n, s.notifiers p = some n → (n.isEnabled = true ↔ p ∉ s.working)) ∧
      ∀ e, step s e ≠ .error .dangling := by
  let := LibGpgError.documented
  obtain ⟨ts, s, hrun, -, hnone⟩ := run_removed
  exact ⟨ts, s, hrun, hnone, notifiersKept hrun⟩

/-! ## Re-entrance -/

/-- A callback is registered for what a notifier in memory watches, be it one that will be
deleted. -/
def Clashes (s : Interactor) : Event → Prop
  | .registerIOCb fd dir _ _ _ _ _ =>
      ∃ p n, s.notifiers p = some n ∧ n.fd = fd ∧ n.dir = asked dir
  | _ => False

/-- The callback of an entry is at work, on behalf of a notifier that is in memory. -/
def Interactor.AtWork (s : Interactor) (x : Registered) : Prop :=
  ∃ d, d.o.isSome ∧ (d, x) ∈ s.disablers.zip s.state.running

/-- No two notifiers watch the same. -/
def Separate (notifiers : Pointer → Option QSocketNotifier) : Prop :=
  ∀ p q n m, notifiers p = some n → notifiers q = some m → n.fd = m.fd → n.dir = m.dir → p = q

omit [LibGpgError] in
/-- Nothing is watched that was not. -/
theorem Separate.mono {notifiers notifiers' : Pointer → Option QSocketNotifier}
    (h : Separate notifiers)
    (hsub : ∀ q m, notifiers' q = some m →
      ∃ n, notifiers q = some n ∧ n.fd = m.fd ∧ n.dir = m.dir) : Separate notifiers' := by
  intro p q n m hn hm hfd hdir
  obtain ⟨n₀, hn₀, hfd₁, hdir₁⟩ := hsub p n hn
  obtain ⟨m₀, hm₀, hfd₂, hdir₂⟩ := hsub q m hm
  exact h p q n₀ m₀ hn₀ hm₀ (by rw [hfd₁, hfd₂, hfd]) (by rw [hdir₁, hdir₂, hdir])

omit [LibGpgError] in
/-- A notifier that watches what it did. -/
theorem Separate.update {notifiers : Pointer → Option QSocketNotifier} {n m : QSocketNotifier}
    (h : Separate notifiers) (hn : notifiers p = some n) (hfd : m.fd = n.fd)
    (hdir : m.dir = n.dir) :
    Separate (Function.update notifiers p (some m)) := by
  refine h.mono fun q k hk => ?_
  by_cases heq : q = p
  · subst heq
    rw [Function.update_self] at hk
    cases hk
    exact ⟨n, hn, hfd.symm, hdir.symm⟩
  · rw [Function.update_of_ne heq] at hk
    exact ⟨k, hk, rfl, rfl⟩

omit [LibGpgError] in
/-- A notifier that watches what no other does. -/
theorem Separate.add {notifiers : Pointer → Option QSocketNotifier} {m : QSocketNotifier}
    (h : Separate notifiers)
    (hnone : ∀ q n, notifiers q = some n → n.fd = m.fd → n.dir ≠ m.dir) :
    Separate (Function.update notifiers p (some m)) := by
  have hcases : ∀ q n, Function.update notifiers p (some m) q = some n →
      (q = p ∧ n = m) ∨ notifiers q = some n := by
    intro q n hn
    by_cases hq : q = p
    · subst hq
      rw [Function.update_self] at hn
      exact .inl ⟨rfl, (Option.some.inj hn).symm⟩
    · rw [Function.update_of_ne hq] at hn
      exact .inr hn
  intro q r n k hn hk hfd hdir
  rcases hcases q n hn with ⟨hq, hnm⟩ | hqn
  · rcases hcases r k hk with ⟨hr, -⟩ | hrk
    · rw [hq, hr]
    · rw [hnm] at hfd hdir
      exact absurd hdir.symm (hnone r k hrk hfd.symm)
  · rcases hcases r k hk with ⟨-, hkm⟩ | hrk
    · rw [hkm] at hfd hdir
      exact absurd hdir (hnone q n hqn hfd)
    · exact h q r n k hqn hrk hfd hdir

/-- No two notifiers watch the same, and each slot at work has run the callback of its notifier. -/
structure Apart (s : Interactor) : Prop where
  kept : Kept s.state.mCallbacks s.notifiers s.working
  separate : Separate s.notifiers
  own : ∀ d x, (d, x) ∈ s.disablers.zip s.state.running → ∀ p, d.o = some p → watcherOf x = p

omit [LibGpgError] in
/-- Then `actOn` finds the entry of the notifier. -/
theorem Apart.entryFor_eq (h : Apart s) {n : QSocketNotifier} (hn : s.notifiers p = some n)
    (x : Registered) : s.entryFor n = some x ↔ x ∈ s.state.mCallbacks ∧ watcherOf x = p := by
  have hwatcher : ∀ y ∈ s.state.mCallbacks,
      (y.object.fd = n.fd ∧ direction y.object.dir = n.dir) ↔ watcherOf y = p := by
    intro y hy
    obtain ⟨m, hm, -⟩ := (h.kept.registered _).mpr ⟨y, hy, rfl⟩
    obtain ⟨hfd, hdir⟩ := h.kept.watches y hy m hm
    constructor
    · rintro ⟨hfd', hdir'⟩
      exact h.separate _ _ m n hm hn (hfd.trans hfd') (hdir.trans hdir')
    · rintro rfl
      rw [hn] at hm
      cases hm
      exact ⟨hfd.symm, hdir.symm⟩
  rw [Interactor.entryFor]
  constructor
  · intro hfind
    have hmem := List.mem_of_find?_eq_some hfind
    exact ⟨hmem, (hwatcher x hmem).mp (by simpa using List.find?_some hfind)⟩
  · rintro ⟨hmem, hp⟩
    cases hfind : s.state.mCallbacks.find? fun e =>
        e.object.fd = n.fd ∧ direction e.object.dir = n.dir with
    | none =>
        have hnone := List.find?_eq_none.mp hfind x hmem
        simp only [decide_eq_true_eq] at hnone
        exact absurd ((hwatcher x hmem).mpr hp) hnone
    | some y =>
        have hy := List.mem_of_find?_eq_some hfind
        have hyp := (hwatcher y hy).mp (by simpa using List.find?_some hfind)
        exact congrArg some
          (List.inj_on_of_nodup_map h.kept.watchers hy hmem (hyp.trans hp.symm))

omit [LibGpgError] in
theorem Apart.stepped {e : Event} (h : Apart s) (hinv : Inv s') (hs : Stepped s e o s')
    (hclash : ¬ Clashes s e) : Apart s' := by
  have hseparate := h.separate
  cases hs with
  | registerIOCb hwatcher haddress =>
      rename_i fd dir fnc fncData rTag watcher address
      have hnone : ∀ p n, s.notifiers p = some n → n.fd = fd → n.dir ≠ direction dir :=
        fun p n hn hfd hdir => hclash ⟨p, n, hn, hfd, hdir.trans (direction_eq dir)⟩
      exact ⟨hinv.kept, hseparate.add hnone, h.own⟩
  | notRegistered hfind => exact h
  | removeIOCb hfind hn => exact ⟨hinv.kept, hseparate.update hn rfl rfl, h.own⟩
  | idle hn henabled hfind => exact h
  | actOn hn henabled hfind =>
      rename_i p n x
      refine ⟨hinv.kept, ?_, ?_⟩
      · have hset := hseparate.update (m := { n with isEnabled := false }) hn rfl rfl
        simpa [Interactor.setEnabled, hn] using hset
      · intro d y hmem q hq
        rcases List.mem_cons.mp hmem with heq | hmem
        · cases heq
          cases hq
          exact ((h.entryFor_eq hn x).mp hfind).2
        · exact h.own d y hmem q hq
  | callbackReturns hds hes =>
      rename_i d ds x es
      have hown : ∀ c y, (c, y) ∈ ds.zip es → ∀ q, c.o = some q → watcherOf y = q :=
        fun c y hmem => h.own c y (by rw [hds, hes]; exact List.mem_cons_of_mem _ hmem)
      have hkept := hinv.kept
      cases ho : d.o with
      | none =>
          simp only [enable, ho] at hkept ⊢
          exact ⟨hkept, hseparate, hown⟩
      | some p =>
          obtain ⟨n, hn⟩ := Option.ne_none_iff_exists'.mp
            (h.kept.there p (by simp [Interactor.working, hds, ho]))
          have hset := hseparate.update (m := { n with isEnabled := d.wasEnabled }) hn rfl rfl
          simp only [enable, ho, Interactor.setEnabled, hn, Option.map_some] at hkept ⊢
          exact ⟨hkept, hset, hown⟩
  | deleted hn hlater =>
      rename_i p n
      refine ⟨hinv.kept, hseparate.mono fun q m hm => ?_, ?_⟩
      · by_cases hq : q = p
        · simp [Interactor.delete, hq] at hm
        · simp only [Interactor.delete, Function.update_of_ne hq] at hm
          exact ⟨m, hm, rfl, rfl⟩
      · intro c y hmem q hq
        simp only [Interactor.delete, List.zip_map_left] at hmem
        obtain ⟨⟨d, z⟩, hzip, heq⟩ := List.mem_map.mp hmem
        cases heq
        refine h.own d z hzip q ?_
        simp only [forget] at hq
        split at hq
        · cases hq
        · exact hq

/-- **A callback is not run while it is at work.**  As long as gpgme registers nothing for a
descriptor and direction that a notifier in memory watches, activity on a notifier runs the callback
of its registration, if that was not removed, and this callback is not at work. -/
theorem notReentered (h : Run step .init ts s) (hts : ∀ t ∈ ts, ¬ Clashes t.source t.input)
    (hstep : step s (.activated p) = .ok (o, s')) :
    (∀ x, o.called = some x ↔ x ∈ s.state.mCallbacks ∧ watcherOf x = p) ∧
      ∀ x, o.called = some x → ¬ s.AtWork x := by
  have hapart : Inv s ∧ Apart s :=
    h.invariant_of (fun s => Inv s ∧ Apart s) (fun t => ¬ Clashes t.source t.input)
      ⟨inv_init, kept_init, nofun, nofun⟩ hts fun m e o m' hm hstep hclash => by
        have hs := stepped_of_step hstep
        exact ⟨hm.1.stepped hs, hm.2.stepped (hm.1.stepped hs) hs hclash⟩
  obtain ⟨-, hapart⟩ := hapart
  have hcalled : ∃ n, s.notifiers p = some n ∧ n.isEnabled = true ∧ o.called = s.entryFor n := by
    cases stepped_of_step hstep with
    | idle hn henabled hfind => exact ⟨_, hn, henabled, hfind.symm⟩
    | actOn hn henabled hfind => exact ⟨_, hn, henabled, hfind.symm⟩
  obtain ⟨n, hn, henabled, hcalled⟩ := hcalled
  rw [hcalled]
  refine ⟨hapart.entryFor_eq hn, ?_⟩
  rintro x hx ⟨d, hd, hmem⟩
  obtain ⟨q, hq⟩ := Option.isSome_iff_exists.mp hd
  have hxp := ((hapart.entryFor_eq hn x).mp hx).2
  have hxq := hapart.own d x hmem q hq
  have hidle := (hapart.kept.enabled p n hn).mp henabled
  apply hidle
  rw [← hxp, hxq, Interactor.working, List.mem_filterMap]
  exact ⟨d, (List.of_mem_zip hmem).1, hq⟩

omit [LibGpgError] in
theorem notReentered_first :
    letI := LibGpgError.documented
    ∃ (ts : List Happened) (s s' : Interactor) (o : Output), Run step .init ts s ∧
      ts.map Transition.input = [.registerIOCb 3 1 10 20 true 7 100] ∧
      step s (.activated 7) = .ok (o, s') ∧
      (∀ x, o.called = some x ↔ x ∈ s.state.mCallbacks ∧ watcherOf x = 7) ∧
      ∀ x, o.called = some x → ¬ s.AtWork x := by
  let := LibGpgError.documented
  have hstep : ∃ s, step .init (.registerIOCb 3 1 10 20 true 7 100) = .ok s ∧
      ∃ s', step s.2 (.activated 7) = .ok s' := ⟨_, rfl, _, rfl⟩
  obtain ⟨⟨o₁, s⟩, hfirst, ⟨o, s'⟩, hsecond⟩ := hstep
  refine ⟨_, s, s', o, .single hfirst, rfl, hsecond, notReentered (.single hfirst) ?_ hsecond⟩
  intro t ht hclash
  obtain rfl := List.mem_singleton.mp ht
  obtain ⟨p, n, hn, -⟩ := hclash
  cases hn

omit [LibGpgError] in
/-- The notifier of an earlier registration, still in memory, runs the callback of the new one while
that is at work. -/
example :
    letI := LibGpgError.documented
    ∃ (ts : List Happened) (s : Interactor) (x : Registered), Run step .init ts s ∧
      ts.map Transition.input = [.registerIOCb 3 1 10 20 true 7 100, .removeIOCb 100,
        .registerIOCb 3 1 11 21 true 8 101, .activated 8, .activated 7] ∧
      s.state.running = [x, x] := by
  let := LibGpgError.documented
  exact ⟨_, _, _, .cons rfl (.cons rfl (.cons rfl (.cons rfl (.cons rfl (.nil _))))), rfl, rfl⟩

end Laws

end Gpgmepp.QGpgME
