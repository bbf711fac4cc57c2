import Gpgmepp.Configuration.Members
import Gpgmepp.Lib.Run

/-!
# What one operation does

In a linked world an operation ends in one of the worlds of `Effect`, and the faults it
can end with are the ones of `Excused`: a freed option is used only by an operation that
is not `Safe`, and a wrong member is read only by one that is not a `TypedUse`, or in a
world that is not well typed.

## Main results

* `ensures_step` — every operation, in every linked world.
* `Effect.linked`, `Effect.wellTyped` — what it keeps.
* `linked_of_run` — the worlds that programs reach are linked.
-/

namespace Gpgmepp.Configuration

open StateMachine

variable {E : ConfFault → Prop} {w : World}

/-- The worlds that an operation can end in. -/
inductive Effect (w : World) (op : Op) : World → Prop
  | same : Effect w op w
  | handles (c n : ℕ) (halive : w.Alive c) : Effect w op (w.setHandles c n)
  | option (v : ℕ) (o : ConfOption) (hp : w.Points o.comp o.opt) : Effect w op (w.setOption v o)
  | record (r : Ref) (old rec : OptRecord) (hold : w.deref r = .ok old)
      (htype : rec.altType = old.altType) : Effect w op (w.setRecord r rec)
  | construct (x : ℕ) (a : Argument) (hp : w.Points a.comp a.opt)
      (htyped : TypedUse w op → w.Typed a.opt a.arg) : Effect w op (w.setArgument x (some a))
  | swap (x y : ℕ) (a b : Argument) (ha : w.arguments x = some a) (hb : w.arguments y = some b) :
      Effect w op ((w.setArgument x (some b)).setArgument y (some a))
  | destroy (x : ℕ) : Effect w op (w.setArgument x none)

/-- The faults that an operation can end with. -/
def Excused (w : World) (op : Op) : ConfFault → Prop
  | .noObject => True
  | .freedOption => ¬ Safe w op
  | .wrongMember => ¬ (TypedUse w op ∧ w.WellTyped)

section Step
variable {op : Op}

theorem excused_freed {P : Prop} (h : Safe w op → P) : P ∨ Excused w op .freedOption :=
  (Classical.em (Safe w op)).imp_left h

theorem excused_member {P : Prop} (h : TypedUse w op → w.WellTyped → P) :
    P ∨ Excused w op .wrongMember :=
  (Classical.em (TypedUse w op ∧ w.WellTyped)).imp_left fun ⟨huse, htyped⟩ => h huse htyped

theorem ensures_construct (x : ℕ) {a : Argument} (hp : w.Points a.comp a.opt)
    (htyped : TypedUse w op → w.Typed a.opt a.arg) :
    Ensures (Excused w op) (w.construct x a) fun p => Effect w op p.2 := by
  simp only [World.construct]
  split
  · trivial
  · exact .construct x a hp htyped

variable [GpgmeConf]

/-- `gpgme_conf_opt_change` changes a record and keeps its type. -/
theorem ConfOption.effect_change [LibGpgError] {r : Ref} {rec : OptRecord}
    (hrec : w.deref r = .ok rec) (reset : Bool) (arg : List (Node rec.altType)) :
    Effect w op (change w r rec reset arg).2 := by
  cases reset with
  | false =>
      rw [change, GpgmeConf.confOptChange_change]
      exact .record r rec _ hrec rfl
  | true =>
      rw [change, GpgmeConf.confOptChange_reset]
      exact .record r rec _ hrec rfl

variable [LibGpgError] {o : ConfOption}

theorem ConfOption.ensures_resetToDefaultValue (hp : w.Points o.comp o.opt) :
    Ensures E (o.resetToDefaultValue w) fun p => Effect w op p.2 := by
  refine (ensures_record hp).bind ?_
  rintro (_ | ⟨r, rec⟩) ⟨hrecord, -⟩
  · exact .same
  · exact effect_change (deref_of_record hrecord).2 false []

theorem ConfOption.ensures_resetToActiveValue (hp : w.Points o.comp o.opt) :
    Ensures E (o.resetToActiveValue w) fun p => Effect w op p.2 := by
  refine (ensures_record hp).bind ?_
  rintro (_ | ⟨r, rec⟩) ⟨hrecord, -⟩
  · exact .same
  · exact effect_change (deref_of_record hrecord).2 true []

/-- Setting a value fails only if the value cannot be copied with the type of the option. -/
theorem ConfOption.ensures_setNewValue {a : Argument} {memory : ℕ → Bool}
    (hp : w.Points o.comp o.opt)
    (hmember : (∀ r rec, a.isNull w = false → o.record w = .ok (some (r, rec)) →
      Copied rec.altType memory a.arg.nodes) ∨ E .wrongMember) :
    Ensures E (o.setNewValue w a memory) fun p => Effect w op p.2 := by
  refine (ensures_record hp).bind ?_
  rintro (_ | ⟨r, rec⟩) ⟨hrecord, -⟩
  · exact .same
  · by_cases hnull : a.isNull w = true
    · simp only [hnull, if_true]
      exact ensures_resetToDefaultValue hp
    · simp only [hnull]
      have hcopy := ensures_confArgCopy rec.altType memory a.arg.nodes
      refine (hcopy.imp ?_ fun _ _ => trivial : Ensures E _ fun _ => True).bind ?_
      · rintro f ⟨rfl, hf⟩
        exact hmember.resolve_left fun h => hf (h r rec (by simpa using hnull) hrecord)
      · intro arg _
        split_ifs
        · exact .same
        · exact effect_change (deref_of_record hrecord).2 false arg

/-- **Every operation in a linked world ends in a world of `Effect`, or with a fault that it
is excused for.** -/
theorem ensures_step (hw : w.Linked) (op : Op) :
    Ensures (Excused w op) (step w op) fun p => Effect w op p.2 := by
  cases op with
  | hold c =>
      simp only [step]
      split_ifs with halive
      · exact .handles c _ halive
      · trivial
  | drop c =>
      simp only [step]
      split_ifs with halive
      · exact .handles c _ halive
      · trivial
  | option v c i =>
      simp only [step]
      split_ifs with halive hi
      · refine .option v _ ?_
        intro r hr
        cases hr
        exact ⟨hi, rfl⟩
      · exact .option v _ World.points_none
      · trivial
  | assignOption v u => exact .option v _ (hw.options u)
  | optionParent v =>
      simp only [step]
      cases hlock : w.lock (w.options v).comp with
      | none => exact .same
      | some c => exact .handles c _ (World.lock_eq_some.mp hlock).2
  | parent v x =>
      refine (ensures_argument trivial x).bind ?_
      intro a ha
      exact .option v _ (hw.arguments x a ha).lock
  | property v property =>
      exact (property.ensures_run (hw.options v)).bind fun _ _ => .same
  | setNewValue v x memory =>
      refine (ensures_argument trivial x).bind ?_
      intro a ha
      have hset : Ensures (Excused w (.setNewValue v x memory))
          ((w.options v).setNewValue w a memory)
          fun p => Effect w (.setNewValue v x memory) p.2 :=
        ConfOption.ensures_setNewValue (hw.options v)
          (excused_member fun huse _ r rec => huse a r rec ha)
      exact hset.bind fun _ h => h
  | resetToDefaultValue v =>
      exact (ConfOption.ensures_resetToDefaultValue (hw.options v)).bind fun _ h => h
  | resetToActiveValue v =>
      exact (ConfOption.ensures_resetToActiveValue (hw.options v)).bind fun _ h => h
  | newArgument x => exact ensures_construct x sound_null.1 fun _ => sound_null.2
  | get x v getter memory =>
      refine Ensures.bind (getter.ensures_run (hw.options v) (excused_member fun huse _ => huse)) ?_
      intro a ⟨hp, htyped⟩
      exact ensures_construct x hp fun _ => htyped
  | create x v factory memory =>
      refine (factory.ensures_run (hw.options v)).bind ?_
      intro a ⟨hp, htyped⟩
      exact ensures_construct x hp htyped
  | copy x y memory =>
      refine (ensures_argument trivial y).bind ?_
      intro b hb
      refine Ensures.bind (Argument.ensures_copyOf (hw.arguments y b hb)
        (excused_freed fun h => h b hb) (excused_member fun huse _ type => huse b type hb)) ?_
      intro a ⟨hp, htyped⟩
      exact ensures_construct x hp fun _ => htyped
  | assign x y memory =>
      refine (ensures_argument trivial x).bind ?_
      intro a ha
      refine (ensures_argument trivial y).bind ?_
      intro b hb
      by_cases hxy : x = y
      · simp only [hxy, if_true]
        exact .same
      · simp only [hxy]
        refine Ensures.bind (Argument.ensures_copyOf (hw.arguments y b hb)
          (excused_freed fun h => h hxy b (.inr hb))
          (excused_member fun huse _ type => huse hxy b type hb)) ?_
        intro copy ⟨hp, htyped⟩
        refine Ensures.bind (Argument.ensures_release (hw.arguments x a ha)
          (excused_freed fun h => h hxy a (.inl ha))
          (excused_member fun _ htyped => htyped x a ha)) ?_
        intro _ _
        exact .construct x copy hp fun _ => htyped
  | swap x y =>
      refine (ensures_argument trivial x).bind ?_
      intro a ha
      refine (ensures_argument trivial y).bind ?_
      intro b hb
      exact .swap x y a b ha hb
  | destroy x =>
      refine (ensures_argument trivial x).bind ?_
      intro a ha
      refine Ensures.bind (Argument.ensures_release (hw.arguments x a ha)
        (excused_freed fun h => h a ha) (excused_member fun _ htyped => htyped x a ha)) ?_
      intro _ _
      exact .destroy x
  | access x accessor =>
      refine (ensures_argument trivial x).bind ?_
      intro a ha
      refine Ensures.bind (accessor.ensures_run (hw.arguments x a ha)
        (excused_member fun _ htyped => htyped x a ha)) ?_
      intro _ _
      exact .same

end Step

/-! ## What every operation keeps -/

namespace Effect

variable {w' : World} {op : Op}

/-- Changing a record of a component keeps the types of its options. -/
theorem later_setRecord {r : Ref} {old rec : OptRecord} (hold : w.deref r = .ok old)
    (htype : rec.altType = old.altType) : w.Later (w.setRecord r rec) := by
  intro c
  by_cases hc : c = r.comp
  · subst hc
    have hget : (w.comps r.comp).options[r.index]? = some old := by
      simp only [World.deref] at hold
      split_ifs at hold
      split at hold
      · next h => rw [h, Except.ok.inj hold]
      · cases hold
    refine ⟨by simp [World.setRecord, World.Alive], ?_⟩
    obtain ⟨hindex, hget⟩ := List.getElem?_eq_some_iff.mp hget
    have hlength : r.index < ((w.comps r.comp).options.map OptRecord.altType).length := by
      simpa using hindex
    have hmap : ((w.comps r.comp).options.map OptRecord.altType).get ⟨r.index, hlength⟩ =
        rec.altType := by simp [hget, htype]
    simp only [World.setRecord, Function.update_self, List.map_set, ← hmap]
    exact List.set_getElem_self hlength
  · simp [World.setRecord, World.Alive, hc]

theorem later (h : Effect w op w') : w.Later w' := by
  cases h with
  | handles c n halive =>
      intro c'
      by_cases hc : c' = c
      · subst hc
        simp [World.setHandles, halive]
      · simp [World.setHandles, World.Alive, hc]
  | record r old rec hold htype => exact later_setRecord hold htype
  | _ => exact World.Later.refl w

/-- The arguments after an operation are those before it and those that it made. -/
theorem arguments {P : Argument → Prop} (h : Effect w op w')
    (hw : ∀ x a, w.arguments x = some a → P a)
    (hnew : ∀ a, w.Points a.comp a.opt → (TypedUse w op → w.Typed a.opt a.arg) → P a) :
    ∀ x a, w'.arguments x = some a → P a := by
  have hset : ∀ (u : World) x (b : Option Argument), (∀ x a, u.arguments x = some a → P a) →
      (∀ a, b = some a → P a) → ∀ x' a, (u.setArgument x b).arguments x' = some a → P a := by
    intro u x b hu hb x' a hx'
    simp only [World.setArgument, Function.update_apply] at hx'
    split_ifs at hx'
    · exact hb a hx'
    · exact hu x' a hx'
  cases h with
  | construct x b hp htyped =>
      exact hset w x (some b) hw fun a ha => Option.some.inj ha ▸ hnew b hp htyped
  | swap x y a b ha hb =>
      refine hset _ y (some a) (hset w x (some b) hw ?_) ?_
      · exact fun b' hb' => hw y b' (hb.trans hb')
      · exact fun a' ha' => hw x a' (ha.trans ha')
  | destroy x => exact hset w x none hw fun a ha => nomatch ha
  | _ => exact hw

theorem linked (h : Effect w op w') (hw : w.Linked) : w'.Linked where
  options := by
    intro v
    apply h.later.points
    cases h with
    | option u o hp =>
        simp only [World.setOption, Function.update_apply]
        split_ifs
        · exact hp
        · exact hw.options v
    | _ => exact hw.options v
  arguments := by
    intro x a ha
    exact h.later.points (h.arguments hw.arguments (fun a hp _ => hp) x a ha)

theorem wellTyped (h : Effect w op w') (huse : TypedUse w op) (hw : w.WellTyped) :
    w'.WellTyped := by
  intro x a ha
  exact h.later.typed (h.arguments hw (fun a _ htyped => htyped huse) x a ha)

end Effect

/-! ## Runs -/

/-- **The worlds that programs reach are linked.** -/
theorem linked_of_run [GpgmeConf] [LibGpgError] {w₀ : World}
    {ts : List (Transition World Op Output)} (h0 : w₀.Initial) (hrun : Run step w₀ ts w) :
    w.Linked := by
  refine hrun.invariant World.Linked h0.linked ?_
  intro u op o u' hu hstep
  exact ((ensures_step hu op).of_ok hstep).linked hu

end Gpgmepp.Configuration
