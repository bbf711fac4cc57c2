import Gpgmepp.Context.LifeCycle

/-!
# What holds between calls on contexts

Each call does one of a few things, and each of these keeps what the accounts of contexts rest on:
a `Context` has a context of gpgme exactly while it is there, a lost one is in its own place, and
gpgme was given the pointer to a `Context` exactly for the context of gpgme that this one has,
while it is managed.

## Main definitions

* `Stepped` — the cases of a step.
* `Inv` — what holds between calls.
-/

namespace Gpgmepp.LifeCycle

open Owning StateMachine

/-! ## What a step does -/

/-- What a step leaves. -/
inductive Stepped (found : Capability → Bool) (w : World) (op : Op) : World → Prop
  | same (h : ¬op.Leaks found) : Stepped found w op w
  | lost (h : op.Leaks found) :
      Stepped found w op
        { w with gpgme := w.gpgme.make (.lost w.gpgme.next) ⟨.openPGP, none⟩ }
  | refused (h : ¬op.Leaks found) :
      Stepped found w op
        { w with gpgme := (w.gpgme.make .ctx ⟨.openPGP, none⟩).reset .ctx none }
  | created (h : ¬op.Leaks found) (protocol : GpgmeProtocol) :
      Stepped found w op
        { w with
          gpgme := w.gpgme.make (.context w.next) ⟨protocol, none⟩
          contexts := Function.update w.contexts w.next true
          next := w.next + 1 }
  | deleted (h : ¬op.Leaks found) (c : ℕ) (hc : w.contexts c = true) :
      Stepped found w op (w.deleteContext c)
  | installed (h : ¬op.Leaks found) (c : ℕ) (hc : w.contexts c = true)
      (hm : w.managed c = false) (hi : w.interactor = true) :
      Stepped found w op (w.installIOCallbacks c)
  | uninstalled (h : ¬op.Leaks found) (c : ℕ) (hc : w.contexts c = true) :
      Stepped found w op (w.uninstallIOCallbacks c)
  | interactor (h : ¬op.Leaks found) (b : Bool) (hb : b = false ↔ op = .deleteInteractor) :
      Stepped found w op { w with interactor := b }

/-- What holds between calls. -/
structure Inv (w : World) : Prop where
  gpgme : w.gpgme.WellOwned none
  iocbs : w.iocbs.WellOwned none
  ctx_eq : w.gpgme.held .ctx = none
  lost : ∀ g o, w.gpgme.held (.lost g) = some o → o = g
  context : ∀ c, (w.gpgme.held (.context c)).isSome ↔ w.contexts c = true
  lt_next : ∀ c, w.contexts c = true → c < w.next
  managed : ∀ c, w.managed c = true → w.contexts c = true
  callbacks : ∀ g v, w.gpgme.object g = some v → ∀ c,
    v.ioCbs = some c ↔ w.gpgme.held (.context c) = some g ∧ w.managed c = true
  data : ∀ i c, w.iocbs.object i = some c → w.iocbs.held c = some i

section Calls
variable {w w' : World} {out : Output}

theorem eq_of_ofContext {c : ℕ} {r : Output × World} (h : ofContext w c r = .ok (out, w')) :
    w.contexts c = true ∧ r.2 = w' := by
  simp only [ofContext] at h
  split_ifs at h with hc
  exact ⟨hc, congrArg Prod.snd (Except.ok.inj h)⟩

theorem eq_of_ofInteractor {c : Option ℕ} {r : Output × World}
    (h : ofInteractor w c r = .ok (out, w')) :
    w.interactor = true ∧ c.all w.contexts = true ∧ r.2 = w' := by
  simp only [ofInteractor, Bool.and_eq_true] at h
  split_ifs at h with hc
  exact ⟨hc.1, hc.2, congrArg Prod.snd (Except.ok.inj h)⟩

end Calls

namespace Inv
variable {w : World} (hi : Inv w)

theorem start : Inv start where
  gpgme := Owners.wellOwned_empty
  iocbs := Owners.wellOwned_empty
  ctx_eq := rfl
  lost := by intro g o h; cases h
  context := by intro c; exact Iff.rfl
  lt_next := by intro c h; cases h
  managed := by intro c h; cases h
  callbacks := by intro g v h; cases h
  data := by intro i c h; cases h

include hi

/-- A `Context` that is not there yet has nothing. -/
theorem held_next : w.gpgme.held (.context w.next) = none := by
  cases hheld : w.gpgme.held (.context w.next) with
  | none => rfl
  | some g =>
      have hc := (hi.context w.next).mp (by simp [hheld])
      exact absurd (hi.lt_next _ hc) (Nat.lt_irrefl _)

theorem held_lost_next : w.gpgme.held (.lost w.gpgme.next) = none := by
  cases hheld : w.gpgme.held (.lost w.gpgme.next) with
  | none => rfl
  | some o =>
      obtain rfl := hi.lost _ _ hheld
      have hlt := hi.gpgme.bounded _ (hi.gpgme.there _ _ hheld)
      exact absurd hlt (Nat.lt_irrefl _)

theorem managed_next : w.managed w.next = false := by
  by_contra h
  have hc := hi.managed w.next (by simpa using h)
  exact absurd (hi.lt_next _ hc) (Nat.lt_irrefl _)

theorem change_eq {c : ℕ} (hc : w.contexts c = true) (f : GpgmeContext → GpgmeContext) :
    ∃ g v, w.gpgme.held (.context c) = some g ∧ w.gpgme.object g = some v ∧
      w.change (.context c) f = { w with gpgme := w.gpgme.modify g (f v) } := by
  obtain ⟨g, hg⟩ := Option.isSome_iff_exists.mp ((hi.context c).mpr hc)
  obtain ⟨v, hv⟩ := Option.isSome_iff_exists.mp (hi.gpgme.there _ _ hg)
  exact ⟨g, v, hg, hv, by simp only [World.change, hg, hv]⟩

theorem useProtocol_eq (protocol : GpgmeProtocol) (setErr : Error) :
    useProtocol w.gpgmeNew protocol setErr =
      if setErr.mErr ≠ 0 then
        (none,
          { w with gpgme := (w.gpgme.make .ctx ⟨.openPGP, none⟩).reset .ctx none })
      else
        (some w.next,
          { w with
            gpgme := w.gpgme.make (.context w.next) ⟨protocol, none⟩
            contexts := Function.update w.contexts w.next true
            next := w.next + 1 }) := by
  have hheld : w.gpgmeNew.gpgme.held .ctx = some w.gpgme.next := by
    simp [World.gpgmeNew]
  have hobject : w.gpgmeNew.gpgme.object w.gpgme.next = some ⟨.openPGP, none⟩ := by
    simp [World.gpgmeNew, Owners.object_make]
  have hchange : w.gpgmeNew.change .ctx (fun v => { v with protocol }) =
      { w with gpgme := w.gpgme.make .ctx ⟨protocol, none⟩ } := by
    simp only [World.change, hheld, hobject]
    simp only [World.gpgmeNew, Owners.modify_make hi.ctx_eq]
  simp only [useProtocol, hchange, World.newContext, World.gpgmeRelease,
    Owners.move_make hi.ctx_eq hi.held_next]
  rfl

theorem lose_eq :
    w.gpgmeNew.lose = { w with gpgme := w.gpgme.make (.lost w.gpgme.next) ⟨.openPGP, none⟩ } := by
  have hheld : w.gpgmeNew.gpgme.held .ctx = some w.gpgme.next := by
    simp [World.gpgmeNew]
  simp only [World.lose, hheld]
  simp only [World.gpgmeNew, Owners.move_make hi.ctx_eq hi.held_lost_next]

theorem stepped_useProtocol {found : Capability → Bool} {op : Op} (h : ¬op.Leaks found)
    (protocol : GpgmeProtocol) (setErr : Error) :
    Stepped found w op (useProtocol w.gpgmeNew protocol setErr).2 := by
  rw [hi.useProtocol_eq]
  split_ifs with herr
  · exact .refused h
  · exact .created h protocol

theorem stepped_createForProtocol {found : Capability → Bool} (proto : Protocol)
    (newErr setErr : Error) :
    Stepped found w (.createForProtocol proto newErr setErr)
      (createForProtocol w proto newErr setErr).2 := by
  simp only [createForProtocol]
  split_ifs with hnew
  · exact .same (by cases proto <;> simp [Op.Leaks, hnew])
  · cases proto with
    | openPGP => exact hi.stepped_useProtocol (by simp [Op.Leaks]) _ _
    | cms => exact hi.stepped_useProtocol (by simp [Op.Leaks]) _ _
    | unknownProtocol =>
        rw [hi.lose_eq]
        exact .lost (by simpa [Op.Leaks] using hnew)

theorem stepped_createForEngine [LibGpgError] {found : Capability → Bool} (eng : Engine)
    (newErr setErr : Error) :
    Stepped found w (.createForEngine eng newErr setErr)
      (createForEngine found w eng newErr setErr).2 := by
  by_cases hnew : newErr.mErr ≠ 0
  · rw [createForEngine, if_pos hnew]
    exact .same (by cases eng <;> simp [Op.Leaks, hnew])
  · rw [createForEngine, if_neg hnew]
    replace hnew : newErr.mErr = 0 := by simpa using hnew
    cases eng with
    | assuanEngine =>
        cases hfound : found .assuanEngine with
        | false =>
            simp only [Bool.false_eq_true, if_false, hi.lose_eq]
            exact .lost (by simp [Op.Leaks, hnew, hfound])
        | true => exact hi.stepped_useProtocol (by simp [Op.Leaks, hfound]) _ _
    | g13Engine =>
        cases hfound : found .g13Vfs with
        | false =>
            simp only [Bool.false_eq_true, if_false, hi.lose_eq]
            exact .lost (by simp [Op.Leaks, hnew, hfound])
        | true => exact hi.stepped_useProtocol (by simp [Op.Leaks, hfound]) _ _
    | _ =>
        simp only [hi.lose_eq]
        exact .lost hnew

omit hi in
theorem stepped_manage {found : Capability → Bool} {op : Op} (h : ¬op.Leaks found)
    (hint : w.interactor = true) {c : Option ℕ} (hc : c.all w.contexts = true) :
    Stepped found w op (manage w c) := by
  cases c with
  | none => exact .same h
  | some c =>
      simp only [manage]
      split_ifs with hm
      · exact .same h
      · exact .installed h c hc (by simpa using hm) hint

omit hi in
theorem stepped_unmanage {found : Capability → Bool} {op : Op} (h : ¬op.Leaks found)
    {c : Option ℕ} (hc : c.all w.contexts = true) : Stepped found w op (unmanage w c) := by
  cases c with
  | none => exact .same h
  | some c => exact .uninstalled h c hc

/-- The functions do one of a few things. -/
theorem stepped [LibGpgError] {found : Capability → Bool} {op : Op} {out : Output} {w' : World}
    (h : step found w op = .ok (out, w')) : Stepped found w op w' := by
  cases op with
  | createForProtocol proto newErr setErr =>
      obtain rfl := congrArg Prod.snd (Except.ok.inj h)
      exact hi.stepped_createForProtocol proto newErr setErr
  | createForEngine eng newErr setErr =>
      obtain rfl := congrArg Prod.snd (Except.ok.inj h)
      exact hi.stepped_createForEngine eng newErr setErr
  | deleteContext c =>
      obtain ⟨hc, rfl⟩ := eq_of_ofContext h
      exact .deleted id c hc
  | protocol c =>
      obtain ⟨-, rfl⟩ := eq_of_ofContext h
      exact .same id
  | managedByEventLoopInteractor c =>
      obtain ⟨-, rfl⟩ := eq_of_ofContext h
      exact .same id
  | setManagedByEventLoopInteractor c b =>
      obtain ⟨hc, rfl⟩ := eq_of_ofContext h
      simp only [setManagedByEventLoopInteractor]
      split_ifs with hint hb
      · exact .same id
      · exact stepped_manage id (by simpa using hint) hc
      · exact stepped_unmanage id hc
  | manage c =>
      obtain ⟨hint, hc, rfl⟩ := eq_of_ofInteractor h
      exact stepped_manage id hint hc
  | unmanage c =>
      obtain ⟨-, hc, rfl⟩ := eq_of_ofInteractor h
      exact stepped_unmanage id hc
  | newInteractor =>
      simp only [step] at h
      split_ifs at h
      obtain rfl := congrArg Prod.snd (Except.ok.inj h)
      exact .interactor id true (by simp)
  | deleteInteractor =>
      obtain ⟨-, -, rfl⟩ := eq_of_ofInteractor h
      exact .interactor id false (by simp)
  | event g type =>
      obtain rfl : w = w' := by
        simp only [step] at h
        split at h
        · cases h
        · exact congrArg Prod.snd (Except.ok.inj h)
        · simp only [eventIOCb] at h
          split_ifs at h
          · exact congrArg Prod.snd (Except.ok.inj h)
          · exact congrArg Prod.snd (Except.ok.inj h)
      exact .same id

/-! ### Every step keeps it -/

theorem held_ne_next (p : Place) : w.gpgme.held p ≠ some w.gpgme.next := by
  intro hp
  have hlt := hi.gpgme.bounded _ (hi.gpgme.there p _ hp)
  exact absurd hlt (Nat.lt_irrefl _)

/-- A context of gpgme that is new has no callbacks. -/
theorem callbacks_make {p : Place} (hp : w.gpgme.held p = none)
    (hm : ∀ c, p = .context c → w.managed c = false) (protocol : GpgmeProtocol) (g : ℕ)
    (v : GpgmeContext) (hv : (w.gpgme.make p ⟨protocol, none⟩).object g = some v) (c : ℕ) :
    v.ioCbs = some c ↔
      (w.gpgme.make p ⟨protocol, none⟩).held (.context c) = some g ∧ w.managed c = true := by
  rw [Owners.object_make, hp] at hv
  rw [Owners.held_make]
  by_cases hg : g = w.gpgme.next
  · subst hg
    obtain rfl : ⟨protocol, none⟩ = v := by simpa using hv
    refine iff_of_false nofun ?_
    rintro ⟨hheld, hmanaged⟩
    by_cases hpc : p = .context c
    · simp [hm c hpc] at hmanaged
    · rw [Function.update_of_ne (Ne.symm hpc)] at hheld
      exact hi.held_ne_next _ hheld
  · rw [hi.callbacks g v (by simpa [hg] using hv) c]
    by_cases hpc : p = .context c
    · subst hpc
      simp [hp, Ne.symm hg]
    · rw [Function.update_of_ne (Ne.symm hpc)]

theorem lose : Inv { w with gpgme := w.gpgme.make (.lost w.gpgme.next) ⟨.openPGP, none⟩ } where
  gpgme := hi.gpgme.make _ _
  iocbs := hi.iocbs
  ctx_eq := by simpa using hi.ctx_eq
  lost := by
    intro g o hg
    by_cases hnew : g = w.gpgme.next
    · subst hnew
      simpa using hg.symm
    · exact hi.lost g o (by simpa [hnew] using hg)
  context := by simpa using hi.context
  lt_next := hi.lt_next
  managed := hi.managed
  callbacks := hi.callbacks_make hi.held_lost_next nofun _
  data := hi.data

theorem create (protocol : GpgmeProtocol) :
    Inv { w with
      gpgme := w.gpgme.make (.context w.next) ⟨protocol, none⟩
      contexts := Function.update w.contexts w.next true
      next := w.next + 1 } where
  gpgme := hi.gpgme.make _ _
  iocbs := hi.iocbs
  ctx_eq := by simpa using hi.ctx_eq
  lost := by simpa using hi.lost
  context := by
    intro c
    by_cases hc : c = w.next
    · simp [hc]
    · simpa [hc] using hi.context c
  lt_next := by
    intro c hc
    change c < w.next + 1
    by_cases hnew : c = w.next
    · omega
    · have hlt := hi.lt_next c (by simpa [hnew] using hc)
      omega
  managed := by
    intro c hm
    by_cases hc : c = w.next
    · simp [hc]
    · simpa [hc] using hi.managed c hm
  callbacks := by
    refine hi.callbacks_make hi.held_next (fun c hc => ?_) _
    obtain rfl : w.next = c := by simpa using hc
    exact hi.managed_next
  data := hi.data

/-- What gpgme does not accept is released, and nothing is left of it. -/
theorem refuse :
    Inv { w with
      gpgme := (w.gpgme.make .ctx ⟨.openPGP, none⟩).reset .ctx none } := by
  have hheld : ((w.gpgme.make .ctx ⟨.openPGP, none⟩).reset .ctx none).held =
      w.gpgme.held := by
    rw [Owners.held_reset, Owners.held_make, Function.update_idem, ← hi.ctx_eq,
      Function.update_eq_self]
  have hobject : ∀ g v,
      ((w.gpgme.make .ctx ⟨.openPGP, none⟩).reset .ctx none).object g = some v →
        w.gpgme.object g = some v := by
    intro g v hv
    rw [Owners.object_reset, Owners.object_make, hi.ctx_eq, Owners.held_make] at hv
    by_cases hg : g = w.gpgme.next
    · simp [hg] at hv
    · simpa [hg, Ne.symm hg] using hv
  exact
    { gpgme := (hi.gpgme.make _ _).reset _
      iocbs := hi.iocbs
      ctx_eq := by simp
      lost := by simpa only [hheld] using hi.lost
      context := by simpa only [hheld] using hi.context
      lt_next := hi.lt_next
      managed := hi.managed
      callbacks := by
        intro g v hv c
        have hold := hi.callbacks g v (hobject g v hv) c
        rw [← hheld] at hold
        exact hold
      data := hi.data }

theorem delete (c : ℕ) : Inv (w.deleteContext c) where
  gpgme := hi.gpgme.reset _
  iocbs := hi.iocbs.reset _
  ctx_eq := by simpa [World.deleteContext, World.gpgmeRelease] using hi.ctx_eq
  lost := by simpa [World.deleteContext, World.gpgmeRelease] using hi.lost
  context := by
    intro c'
    by_cases hc : c' = c
    · simp [World.deleteContext, World.gpgmeRelease, hc]
    · simpa [World.deleteContext, World.gpgmeRelease, hc] using hi.context c'
  lt_next := by
    intro c' hc'
    by_cases hc : c' = c
    · simp [World.deleteContext, hc] at hc'
    · exact hi.lt_next c' (by simpa [World.deleteContext, hc] using hc')
  managed := by
    intro c' hm
    by_cases hc : c' = c
    · simp [World.managed, World.deleteContext, hc] at hm
    · simpa [World.deleteContext, hc] using
        hi.managed c' (by simpa [World.managed, World.deleteContext, hc] using hm)
  callbacks := by
    intro g v hv c'
    simp only [World.deleteContext, World.gpgmeRelease, Owners.object_reset] at hv
    split_ifs at hv with hdead
    rw [hi.callbacks g v hv c']
    by_cases hc : c' = c
    · subst hc
      have hheld : w.gpgme.held (.context c') ≠ some g := fun hheld => hdead ⟨hheld, nofun⟩
      simp [World.deleteContext, World.gpgmeRelease, hheld]
    · simp [World.deleteContext, World.gpgmeRelease, World.managed, hc]
  data := by
    intro i c' hobj
    simp only [World.deleteContext, Owners.object_reset] at hobj
    split_ifs at hobj with hdead
    have hheld := hi.data i c' hobj
    by_cases hc : c' = c
    · exact absurd ⟨hc ▸ hheld, nofun⟩ hdead
    · simpa [World.deleteContext, hc] using hheld

/-- Callbacks are set, and `d->iocbs` with them. -/
theorem setIOCallbacks {c : ℕ} (hc : w.contexts c = true) {iocbs : Owners ℕ ℕ} {b : Bool}
    (howned : iocbs.WellOwned none) (hc' : (iocbs.held c).isSome = b)
    (hne : ∀ c', c' ≠ c → iocbs.held c' = w.iocbs.held c')
    (hdata : ∀ i c', iocbs.object i = some c' → iocbs.held c' = some i) :
    Inv { (w.change (.context c) fun v => { v with ioCbs := if b then some c else none }) with
      iocbs := iocbs } := by
  obtain ⟨g, v, hg, hv, hchange⟩ :=
    hi.change_eq hc fun v => { v with ioCbs := if b then some c else none }
  rw [hchange]
  refine ⟨hi.gpgme.modify (by simp [hv]) _, howned, hi.ctx_eq, hi.lost, hi.context,
    hi.lt_next, ?_, ?_, hdata⟩
  · intro c' hm
    by_cases hcc : c' = c
    · exact hcc ▸ hc
    · exact hi.managed c' (by simpa [World.managed, hne c' hcc] using hm)
  · intro g' v' hv' c'
    change v'.ioCbs = some c' ↔ w.gpgme.held (.context c') = some g' ∧ (iocbs.held c').isSome
    by_cases hgg : g' = g
    · subst hgg
      obtain rfl : (⟨v.protocol, if b then some c else none⟩ : GpgmeContext) = v' := by
        simpa [Owners.modify] using hv'
      by_cases hcc : c' = c
      · subst hcc
        simp [hg, hc']
      · have hother : w.gpgme.held (.context c') ≠ some g' := by
          intro hheld
          exact hcc (by simpa using hi.gpgme.unique _ _ _ hheld hg)
        simp [hother, Ne.symm hcc]
    · rw [hi.callbacks g' v' (by simpa [Owners.modify, hgg] using hv') c']
      by_cases hcc : c' = c
      · subst hcc
        simp [hg, Ne.symm hgg]
      · simp [World.managed, hne c' hcc]

theorem install {c : ℕ} (hc : w.contexts c = true) (hm : w.managed c = false) :
    Inv (w.installIOCallbacks c) := by
  have hheld : w.iocbs.held c = none := by simpa [World.managed] using hm
  refine hi.setIOCallbacks (b := true) hc (hi.iocbs.make c c) (by simp)
    (fun c' hne => by simp [hne]) ?_
  intro i c' hobj
  rw [Owners.object_make, hheld] at hobj
  by_cases hnew : i = w.iocbs.next
  · obtain rfl : c = c' := by simpa [hnew] using hobj
    simp [hnew]
  · have hold := hi.data i c' (by simpa [hnew] using hobj)
    have hne : c' ≠ c := by
      rintro rfl
      simp [hheld] at hold
    simpa [hne] using hold

theorem uninstall {c : ℕ} (hc : w.contexts c = true) : Inv (w.uninstallIOCallbacks c) := by
  refine hi.setIOCallbacks (b := false) hc (hi.iocbs.reset c) (by simp)
    (fun c' hne => by simp [hne]) ?_
  intro i c' hobj
  rw [Owners.object_reset] at hobj
  split_ifs at hobj with hdead
  have hold := hi.data i c' hobj
  by_cases hne : c' = c
  · exact absurd ⟨hne ▸ hold, nofun⟩ hdead
  · simpa [hne] using hold

theorem keep {found : Capability → Bool} {op : Op} {w' : World} (h : Stepped found w op w') :
    Inv w' := by
  cases h with
  | same _ => exact hi
  | lost _ => exact hi.lose
  | refused _ => exact hi.refuse
  | created _ protocol => exact hi.create protocol
  | deleted _ c _ => exact hi.delete c
  | installed _ c hc hm _ => exact hi.install hc hm
  | uninstalled _ c hc => exact hi.uninstall hc
  | interactor _ b _ =>
      exact ⟨hi.gpgme, hi.iocbs, hi.ctx_eq, hi.lost, hi.context, hi.lt_next, hi.managed,
        hi.callbacks, hi.data⟩

end Inv

end Gpgmepp.LifeCycle
