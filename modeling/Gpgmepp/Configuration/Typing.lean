import Gpgmepp.Configuration.Effect

/-!
# The members of unions

The functions that make an argument with one value look at the alternate type of the
option; those that make a list of values do not, and `setNewValue` does not look at the
option of the argument it is given.  A program that passes them what they expect keeps
the nodes of every argument typed with the alternate type of its option, and reads,
copies and releases each node by the member it was made with.

## Main results

* `sound_iff_typedUse` — every run with typed use.
* `not_sound_stringList` — a list of strings for an option that is a number.
-/

namespace Gpgmepp.Configuration

open StateMachine

/-- Every argument is null, or its nodes were made with the alternate type of its
option. -/
def World.Agree (w : World) : Prop :=
  ∀ x a, w.arguments x = some a →
    a.isNull w = true ∨ (a.parent w).alternateType w = .ok a.arg.type

variable {w₀ w w' : World} {ts : List (Transition World Op Output)}

theorem alternateType_parent {a : Argument} (hp : w.Points a.comp a.opt)
    (hnull : a.isNull w = false) : (a.parent w).alternateType w = w.typeOf a.opt := by
  obtain ⟨type, halternate, htype⟩ :=
    (ConfOption.ensures_alternateType (o := a.parent w) hp.lock).exists_ok
  rw [halternate]
  refine (htype ?_).symm
  simp only [Argument.isNull, Bool.or_eq_false_iff] at hnull
  simpa [ConfOption.isNull, Argument.parent, World.expired] using hnull.1

/-! ## Worlds in which nothing is misread -/

section Run
variable [GpgmeConf] [LibGpgError]

/-- Arguments agree with their options, and no accessor and no destructor reads a wrong
member. -/
structure World.Sound (w : World) : Prop where
  agree : w.Agree
  access : ∀ x accessor, step w (.access x accessor) ≠ .error .wrongMember
  destroy : ∀ x, step w (.destroy x) ≠ .error .wrongMember

/-- **The worlds in which nothing is misread are those that are well typed.** -/
theorem World.Linked.sound_iff (hw : w.Linked) : w.Sound ↔ w.WellTyped := by
  constructor
  · intro h x a ha hnodes hu
    have hp := hw.arguments x a ha
    cases hopt : a.opt with
    | none =>
        -- a null option cannot disagree, but the destructor would misread the nodes
        by_contra hne
        have hmember : a.arg.type.member ≠ ConfType.none.member := by
          revert hne
          cases a.arg.type <;> simp [typeOf, ConfType.member]
        apply h.destroy x
        simp [step, argument, ha, Argument.release, hopt, typeOf, gpgmeConfArgRelease, hnodes,
          hmember, bind, Except.bind]
    | some r =>
        have hexpired : w.expired a.comp = false := by
          rw [hopt] at hp hu
          exact hp.alive_iff.mp (hu r rfl)
        have hnull : a.isNull w = false := by simp [Argument.isNull, hexpired, hopt, hnodes]
        rw [← hopt, ← alternateType_parent hp hnull]
        exact (h.agree x a ha).resolve_left (by simp [hnull])
  · intro h
    refine ⟨?_, ?_, ?_⟩
    · intro x a ha
      by_cases hnull : a.isNull w = true
      · exact .inl hnull
      · rw [Bool.not_eq_true] at hnull
        have hp := hw.arguments x a ha
        rw [alternateType_parent hp hnull]
        simp only [Argument.isNull, Bool.or_eq_false_iff, List.isEmpty_eq_false_iff] at hnull
        exact .inr (h x a ha hnull.2 (hp.usable hnull.1.1))
    · intro x accessor
      exact (ensures_step hw _).ne_error fun hf => hf ⟨trivial, h⟩
    · intro x
      exact (ensures_step hw _).ne_error fun hf => hf ⟨trivial, h⟩

/-! ## What a completed operation says about its use -/

omit [LibGpgError] in
/-- A list that was copied is one that can be. -/
theorem ensures_copied {s : ConfType} (type : ConfType) (memory : ℕ → Bool)
    (nodes : List (Node s)) :
    Ensures (fun _ => True) (mygpgmeConfArgCopy type memory nodes)
      fun _ => Copied type memory nodes :=
  (ensures_confArgCopy type memory nodes).imp (fun _ _ => trivial) fun _ h => h

omit [LibGpgError] in
theorem ensures_copied_copyOf (comp : Option ℕ) (opt : Option Ref) (arg : ArgList)
    (memory : ℕ → Bool) :
    Ensures (fun _ => True) (Argument.copyOf w comp opt arg memory)
      fun _ => ∀ type, w.typeOf opt = .ok type → Copied type memory arg.nodes := by
  refine Ensures.value.bind fun type htype => ?_
  refine (ensures_copied type memory _).bind ?_
  intro _ hcopied type' htype'
  cases htype.symm.trans htype'
  exact hcopied

omit [LibGpgError] in
theorem ensures_copied_getter (x v : ℕ) (getter : Getter) (memory : ℕ → Bool) :
    Ensures (fun _ => True) (getter.run w (w.options v) memory)
      fun _ => TypedUse w (.get x v getter memory) := by
  have hrun : getter.run w (w.options v) memory =
      (w.options v).valueOf w getter.select memory := by cases getter <;> rfl
  rw [hrun]
  refine Ensures.value.bind ?_
  rintro (_ | ⟨r, rec⟩) hrecord
  · exact fun r rec h => nomatch hrecord.symm.trans h
  · refine (ensures_copied_copyOf _ _ _ _).mono ?_
    intro _ hcopied r' rec' h
    cases hrecord.symm.trans h
    exact hcopied _ (ConfOption.typeOf_of_record hrecord)

theorem ensures_copied_setNewValue (v : ℕ) {x : ℕ} {a : Argument} (memory : ℕ → Bool)
    (ha : w.arguments x = some a) :
    Ensures (fun _ => True) ((w.options v).setNewValue w a memory)
      fun _ => TypedUse w (.setNewValue v x memory) := by
  refine Ensures.value.bind ?_
  rintro (_ | ⟨r, rec⟩) hrecord
  · exact fun _ r rec _ _ h => nomatch hrecord.symm.trans h
  · by_cases hnull : a.isNull w = true
    · refine Ensures.any.mono fun _ _ a' _ _ ha' hnull' => ?_
      cases ha.symm.trans ha'
      exact absurd (hnull.symm.trans hnull') (by decide)
    · simp only [hnull]
      refine (ensures_copied rec.altType memory a.arg.nodes).bind fun _ hcopied => ?_
      refine Ensures.any.mono fun _ _ a' r' rec' ha' _ h => ?_
      cases ha.symm.trans ha'
      cases hrecord.symm.trans h
      exact hcopied

/-- An operation that copied a list has found what it can copy. -/
theorem ensures_typedUse {op : Op} (hop : ∀ x v factory memory, op ≠ .create x v factory memory) :
    Ensures (fun _ => True) (step w op) fun _ => TypedUse w op := by
  cases op with
  | create x v factory memory => exact absurd rfl (hop x v factory memory)
  | get x v getter memory =>
      refine (ensures_copied_getter x v getter memory).bind fun _ h => ?_
      exact Ensures.any.mono fun _ _ => h
  | copy x y memory =>
      refine (ensures_argument trivial y).bind fun b hb => ?_
      refine (ensures_copied_copyOf b.comp b.opt b.arg memory).bind fun _ hcopied => ?_
      refine Ensures.any.mono fun _ _ b' type hb' htype => ?_
      cases hb.symm.trans hb'
      exact hcopied type htype
  | assign x y memory =>
      refine (ensures_argument trivial x).bind fun a ha => ?_
      refine (ensures_argument trivial y).bind fun b hb => ?_
      by_cases hxy : x = y
      · exact Ensures.any.mono fun _ _ h => absurd hxy h
      · simp only [hxy]
        refine (ensures_copied_copyOf b.comp b.opt b.arg memory).bind fun _ hcopied => ?_
        refine Ensures.any.mono fun _ _ _ b' type hb' htype => ?_
        cases hb.symm.trans hb'
        exact hcopied type htype
  | setNewValue v x memory =>
      refine (ensures_argument trivial x).bind fun a ha => ?_
      refine (ensures_copied_setNewValue v memory ha).bind fun _ h => ?_
      exact Ensures.any.mono fun _ _ => h
  | _ => exact Ensures.any

/-- A list of values that was made, and is typed, was made as its type says. -/
theorem typedUse_create {x v : ℕ} {factory : Factory} {memory : ℕ → Bool} {o : Output}
    (hstep : step w (.create x v factory memory) = .ok (o, w')) (h : w'.WellTyped) :
    TypedUse w (.create x v factory memory) := by
  have hmade : ∀ a, factory.run w (w.options v) memory = .ok a → w.Typed a.opt a.arg := by
    intro a ha
    simp only [step, ha, World.construct, bind, Except.bind] at hstep
    split at hstep
    · cases hstep
    · cases hstep
      exact h x a (by simp [World.setArgument])
  cases factory with
  | noneList count =>
      intro hcount hmem
      have hnone := hmade ((w.options v).createNoneListArgument w count memory) rfl
      simp only [ConfOption.createNoneListArgument, if_pos hcount] at hnone
      apply hnone
      obtain ⟨arg, harg⟩ :=
        GpgmeConf.exists_confArgNew .none (some (⟨.count count, rfl⟩ : TypedValue .none))
      simp [ConfOption.owning, makeArgument, hmem, harg]
  | stringList value =>
      intro hmem
      exact hmade _ rfl (makeArgumentList_ne_nil.mpr (by simpa using hmem))
  | stdStringList value =>
      intro hmem
      exact hmade _ rfl (makeArgumentList_ne_nil.mpr (by simpa using hmem))
  | intList values =>
      intro hmem
      exact hmade _ rfl (makeArgumentList_ne_nil.mpr (by simpa using hmem))
  | uintList values =>
      intro hmem
      exact hmade _ rfl (makeArgumentList_ne_nil.mpr (by simpa using hmem))
  | _ => trivial

/-! ## Runs -/

/-- From a well-typed world, an operation ends in a world in which nothing is misread
exactly if it is a typed use. -/
theorem typedUse_iff {op : Op} {o : Output} (hlinked : w.Linked) (htyped : w.WellTyped)
    (hstep : step w op = .ok (o, w')) : TypedUse w op ↔ w'.Sound := by
  have heffect := (ensures_step hlinked op).of_ok hstep
  rw [(heffect.linked hlinked).sound_iff]
  constructor
  · intro huse
    exact heffect.wellTyped huse htyped
  · intro htyped'
    by_cases hop : ∃ x v factory memory, op = .create x v factory memory
    · obtain ⟨x, v, factory, memory, rfl⟩ := hop
      exact typedUse_create hstep htyped'
    · exact (ensures_typedUse fun x v f m h => hop ⟨x, v, f, m, h⟩).of_ok hstep

/-- **In every run, the arguments agree with their options in all states, and are read and
released by the members they were made with, exactly if all operations are typed uses; and
then the next typed use copies no node by another member either.** -/
theorem sound_iff_typedUse (h0 : w₀.Initial) (hrun : Run step w₀ ts w) :
    ((∀ t ∈ ts, TypedUse t.source t.input) ↔ ∀ t ∈ ts, t.target.Sound) ∧
      ((∀ t ∈ ts, TypedUse t.source t.input) →
        ∀ op, TypedUse w op → step w op ≠ .error .wrongMember) := by
  have hkeep : ∀ u op o u', u.Linked ∧ u.WellTyped → step u op = .ok (o, u') →
      TypedUse u op → u'.Linked ∧ u'.WellTyped := by
    rintro u op o u' ⟨hlinked, htyped⟩ hstep huse
    have heffect := (ensures_step hlinked op).of_ok hstep
    exact ⟨heffect.linked hlinked, heffect.wellTyped huse htyped⟩
  have hinit : w₀.Linked ∧ w₀.WellTyped := ⟨h0.linked, h0.wellTyped⟩
  constructor
  · refine hrun.forall_iff (fun u => u.Linked ∧ u.WellTyped)
      (fun t => TypedUse t.source t.input) (fun t => t.target.Sound) hinit ?_
    intro u op o u' hu hstep
    exact ⟨typedUse_iff hu.1 hu.2 hstep, hkeep u op o u' hu hstep⟩
  · intro huse op hop
    obtain ⟨hlinked, htyped⟩ := hrun.invariant_of _ _ hinit huse hkeep
    exact (ensures_step hlinked op).ne_error fun hf => hf ⟨hop, htyped⟩

end Run

/-- A list of numbers for an option that is a number. -/
theorem sound_intList :
    letI := GpgmeConf.documented
    letI := LibGpgError.documented
    ∃ ts, Run step (.ofOption .int32 [⟨false, .int32 1, rfl⟩]) ts .obtained ∧
      ∀ t ∈ ts, t.target.Sound := by
  let := GpgmeConf.documented
  let := LibGpgError.documented
  have hrun : Run step (.ofOption .int32 [⟨false, .int32 1, rfl⟩]) _ .obtained :=
    .cons (i := .option 0 0 0) rfl
      (.cons (i := .create 0 0 (.intList [1]) fun _ => true) rfl (.nil _))
  refine ⟨_, hrun, (sound_iff_typedUse (World.ofOption_initial _ _) hrun).1.mp ?_⟩
  intro t ht
  simp only [List.mem_cons, List.not_mem_nil, or_false] at ht
  rcases ht with rfl | rfl
  · trivial
  · exact fun _ _ => rfl

/-- A list of strings for an option that is a number: the accessor for numbers reads a
pointer. -/
theorem not_sound_stringList :
    letI := GpgmeConf.documented
    letI := LibGpgError.documented
    ¬ ∀ (w₀ w : World) (ts : List (Transition World Op Output)), w₀.Initial →
      Run step w₀ ts w → ∀ t ∈ ts, t.target.Sound := by
  let := GpgmeConf.documented
  let := LibGpgError.documented
  intro h
  have hrun : Run step (.ofOption .int32 []) _ _ :=
    .cons (i := .option 0 0 0) rfl
      (.cons (i := .create 0 0 (.stringList [some (.lit "a")]) fun _ => true) rfl (.nil _))
  exact (h _ _ _ (World.ofOption_initial _ _) hrun _ (.tail _ (.head _))).access 0 .intValues rfl

end Gpgmepp.Configuration
