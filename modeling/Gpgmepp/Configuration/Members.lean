import Gpgmepp.Configuration.Invariants

/-!
# Rules for the member functions

What each member function of an option or an argument ensures, for an object whose
pointers belong together and for any set `E` of faults that are allowed.  Where a
function relies on more than it checks, its rule says on what: the record must be usable
or `freedOption` allowed, the types must agree or `wrongMember` allowed.

## Main results

* `Property.ensures_run`, `Accessor.ensures_run`, `Getter.ensures_run`,
  `Factory.ensures_run` — the families.
* `Argument.ensures_copyOf`, `Argument.ensures_release` — copies and the destructor.
-/

namespace Gpgmepp.Configuration

variable {E : ConfFault → Prop} {w : World} {comp : Option ℕ} {opt : Option Ref}

/-! ## The use of a record -/

theorem World.Points.ensures_typeOf (hp : w.Points comp opt)
    (hfreed : w.Usable opt ∨ E .freedOption) :
    Ensures E (w.typeOf opt) fun type => w.typeOf opt = .ok type := by
  refine Ensures.self ?_
  intro f hf
  cases opt with
  | none => cases hf
  | some r =>
      by_cases halive : w.Alive r.comp
      · obtain ⟨rec, hrec⟩ := hp.exists_deref halive
        simp [World.typeOf, hrec, Except.map] at hf
      · have : f = .freedOption := by
          simpa [World.typeOf, World.deref, halive, Except.map] using hf.symm
        rw [this]
        exact hfreed.resolve_left fun h => halive (h r rfl)

/-- A type that was read is that of a record that can be used. -/
theorem World.usable_of_typeOf {type : ConfType} (h : w.typeOf opt = .ok type) : w.Usable opt := by
  rintro r rfl
  by_contra hfreed
  simp [World.typeOf, World.deref, hfreed, Except.map] at h

namespace ConfOption

variable {o : ConfOption}

/-- Behind the guard is the record of the option. -/
theorem deref_of_record {r : Ref} {rec : OptRecord} (h : o.record w = .ok (some (r, rec))) :
    o.opt = some r ∧ w.deref r = .ok rec := by
  simp only [record] at h
  split_ifs at h
  · cases h
  · split at h
    · cases h
    · next r' hr' =>
        cases hrec : w.deref r' with
        | error f => simp [hrec, Except.map] at h
        | ok rec' =>
            simp only [hrec, Except.map, Except.ok.injEq, Option.some.injEq, Prod.mk.injEq] at h
            obtain ⟨rfl, rfl⟩ := h
            exact ⟨hr', hrec⟩

theorem typeOf_of_record {r : Ref} {rec : OptRecord} (h : o.record w = .ok (some (r, rec))) :
    w.typeOf o.opt = .ok rec.altType := by
  obtain ⟨hr, hrec⟩ := deref_of_record h
  simp [hr, World.typeOf, hrec, Except.map]

/-- The guard keeps the member functions of an option from every fault. -/
theorem ensures_record (hp : w.Points o.comp o.opt) :
    Ensures E (o.record w) fun p => o.record w = .ok p ∧
      (o.isNull w = false → ∃ r rec, p = some (r, rec)) := by
  simp only [record]
  by_cases hnull : o.isNull w
  · simp [hnull]
  · rw [Bool.not_eq_true] at hnull
    have hexpired : w.expired o.comp = false ∧ o.opt.isNone = false := by
      simpa [isNull] using hnull
    obtain ⟨r, hr⟩ := Option.isSome_iff_exists.mp (by simpa using hexpired.2)
    have husable := hp.usable hexpired.1
    rw [hr] at hp husable
    obtain ⟨rec, hrec⟩ := hp.exists_deref (husable r rfl)
    simp [hnull, hr, hrec, Except.map]

/-- What a record says is read without a fault. -/
theorem ensures_field {α : Type} {default : α} {select : OptRecord → α}
    (hp : w.Points o.comp o.opt) :
    Ensures E (o.field w default select) fun v =>
      o.isNull w = false → ∃ r rec, o.record w = .ok (some (r, rec)) ∧ v = select rec := by
  refine (ensures_record hp).bind ?_
  rintro (_ | ⟨r, rec⟩) ⟨hrecord, hsome⟩ hnull
  · obtain ⟨r, rec, h⟩ := hsome hnull
    cases h
  · exact ⟨r, rec, hrecord, rfl⟩

theorem ensures_alternateType (hp : w.Points o.comp o.opt) :
    Ensures E (o.alternateType w) fun type => o.isNull w = false → w.typeOf o.opt = .ok type := by
  refine (ensures_field hp).mono ?_
  intro type h hnull
  obtain ⟨r, rec, hrecord, rfl⟩ := h hnull
  exact typeOf_of_record hrecord

end ConfOption

/-- Reading an option uses no freed record. -/
theorem Property.ensures_run {o : ConfOption} (hp : w.Points o.comp o.opt) (property : Property) :
    Ensures E (property.run w o) fun _ => True := by
  cases property <;> exact (ConfOption.ensures_field hp).bind fun _ _ => trivial

/-! ## Reading an argument -/

namespace Argument

variable {a : Argument} {type : ConfType}

/-- The guard of the accessors lets nodes through only if the option has the type. -/
theorem ensures_guarded (hp : w.Points a.comp a.opt) :
    Ensures E (a.guarded w type) fun nodes =>
      ∀ n ∈ nodes, w.Typed a.opt a.arg → a.arg.type = type := by
  simp only [guarded]
  by_cases hnull : a.isNull w
  · simp [hnull, pure, Except.pure]
  · have husable : w.Usable a.opt := by
      simp only [isNull, Bool.or_eq_true, not_or] at hnull
      exact hp.usable (by simpa using hnull.1.1)
    rw [if_neg hnull]
    refine (hp.ensures_typeOf (.inl husable)).bind ?_
    intro alt halt
    show ∀ n ∈ (if alt = type then a.arg.nodes else []), w.Typed a.opt a.arg → a.arg.type = type
    split_ifs with h
    · intro n hn htyped
      have := (htyped (List.ne_nil_of_mem hn) husable).symm.trans halt
      simpa [h] using this
    · simp

variable {α : Type} {m : Member} {read : Node a.arg.type → Except ConfFault α}

/-- A node behind the guard is read with the member of its type. -/
theorem ensures_read (hm : type.member = m)
    (hread : ∀ n, Ensures (fun f => f = .wrongMember ∧ a.arg.type.member ≠ m) (read n)
      fun _ => a.arg.type.member = m)
    (hmember : w.Typed a.opt a.arg ∨ E .wrongMember)
    {n : Node a.arg.type} (hn : w.Typed a.opt a.arg → a.arg.type = type) :
    Ensures E (read n) fun _ => True := by
  refine (hread n).imp ?_ fun _ _ => trivial
  rintro f ⟨rfl, hne⟩
  refine hmember.resolve_left fun htyped => hne ?_
  rw [hn htyped]
  exact hm

/-- The accessors that read one node. -/
theorem ensures_readOne {idx : ℕ} {default : α} (hp : w.Points a.comp a.opt)
    (hm : type.member = m)
    (hread : ∀ n, Ensures (fun f => f = .wrongMember ∧ a.arg.type.member ≠ m) (read n)
      fun _ => a.arg.type.member = m)
    (hmember : w.Typed a.opt a.arg ∨ E .wrongMember) :
    Ensures E (a.guarded w type >>= fun nodes =>
      match nodes[idx]? with
      | none => pure default
      | some n => read n) fun _ => True := by
  refine (ensures_guarded hp).bind ?_
  intro nodes hnodes
  cases hn : nodes[idx]? with
  | none => trivial
  | some n => exact ensures_read hm hread hmember (hnodes n (List.mem_of_getElem? hn))

/-- The accessors that read all nodes. -/
theorem ensures_readAll (hp : w.Points a.comp a.opt) (hm : type.member = m)
    (hread : ∀ n, Ensures (fun f => f = .wrongMember ∧ a.arg.type.member ≠ m) (read n)
      fun _ => a.arg.type.member = m)
    (hmember : w.Typed a.opt a.arg ∨ E .wrongMember) :
    Ensures E (a.guarded w type >>= fun nodes => nodes.mapM read) fun _ => True := by
  refine (ensures_guarded hp).bind ?_
  intro nodes hnodes
  refine Ensures.mono (Q := fun vs => ∀ v ∈ vs, True) (Ensures.mapM ?_) fun _ _ => trivial
  intro n hn
  exact ensures_read hm hread hmember (hnodes n hn)

end Argument

/-- The accessors use no freed option, and read a wrong member only if the argument has
one. -/
theorem Accessor.ensures_run {a : Argument} (hp : w.Points a.comp a.opt)
    (hmember : w.Typed a.opt a.arg ∨ E .wrongMember) (accessor : Accessor) :
    Ensures E (accessor.run w a) fun _ => True := by
  have hcount : Ensures E (a.numberOfTimesSet w) fun _ => True :=
    Argument.ensures_readOne hp rfl Node.ensures_count hmember
  cases accessor with
  | numElements => trivial
  | numberOfTimesSet => exact hcount.bind fun _ _ => trivial
  | boolValue =>
      have hbool : Ensures E (a.boolValue w) fun _ => True := hcount.bind fun _ _ => trivial
      exact hbool.bind fun _ _ => trivial
  | stringValue idx =>
      exact (Argument.ensures_readOne hp rfl Node.ensures_string hmember).bind fun _ _ => trivial
  | intValue idx =>
      exact (Argument.ensures_readOne hp rfl Node.ensures_int32 hmember).bind fun _ _ => trivial
  | uintValue idx =>
      exact (Argument.ensures_readOne hp rfl Node.ensures_uint32 hmember).bind fun _ _ => trivial
  | stringValues =>
      exact (Argument.ensures_readAll hp rfl Node.ensures_string hmember).bind fun _ _ => trivial
  | intValues =>
      exact (Argument.ensures_readAll hp rfl Node.ensures_int32 hmember).bind fun _ _ => trivial
  | uintValues =>
      exact (Argument.ensures_readAll hp rfl Node.ensures_uint32 hmember).bind fun _ _ => trivial

/-! ## Making arguments -/

/-- The null argument has no pointers and no nodes. -/
theorem sound_null : w.Points Argument.null.comp Argument.null.opt ∧
    w.Typed Argument.null.opt Argument.null.arg :=
  ⟨World.points_none, fun h => absurd rfl h⟩

section Making
variable [GpgmeConf]

theorem Argument.ensures_copyOf {arg : ArgList} {memory : ℕ → Bool} (hp : w.Points comp opt)
    (hfreed : w.Usable opt ∨ E .freedOption)
    (hmember : (∀ type, w.typeOf opt = .ok type → Copied type memory arg.nodes) ∨ E .wrongMember) :
    Ensures E (copyOf w comp opt arg memory) fun a =>
      w.Points a.comp a.opt ∧ w.Typed a.opt a.arg := by
  refine (hp.ensures_typeOf hfreed).bind ?_
  intro type htype
  have hcopy := ensures_confArgCopy type memory arg.nodes
  refine (hcopy.imp ?_ fun _ _ => trivial : Ensures E _ fun _ => True).bind ?_
  · rintro f ⟨rfl, hf⟩
    exact hmember.resolve_left fun h => hf (h type htype)
  · intro nodes _
    exact ⟨hp, fun _ _ => htype⟩

/-- A getter fails only if it cannot copy the value it selects. -/
theorem Getter.ensures_run {o : ConfOption} {memory : ℕ → Bool} (hp : w.Points o.comp o.opt)
    (getter : Getter)
    (hmember : (∀ r rec, o.record w = .ok (some (r, rec)) →
      Copied rec.altType memory (getter.select rec)) ∨ E .wrongMember) :
    Ensures E (getter.run w o memory) fun a => w.Points a.comp a.opt ∧ w.Typed a.opt a.arg := by
  have hrun : getter.run w o memory = o.valueOf w getter.select memory := by
    cases getter <;> rfl
  rw [hrun]
  refine (ConfOption.ensures_record hp).bind ?_
  rintro (_ | ⟨r, rec⟩) ⟨hrecord, -⟩
  · exact sound_null
  · have htype := ConfOption.typeOf_of_record hrecord
    refine Argument.ensures_copyOf hp.lock (.inl (World.usable_of_typeOf htype))
      (hmember.imp_left ?_)
    intro h type htype'
    cases htype.symm.trans htype'
    exact h r rec hrecord

/-- The functions that make arguments do not fail, and what they make is typed if they look
at the option. -/
theorem ConfOption.ensures_createArgument {o : ConfOption} {memory : ℕ → Bool}
    (hp : w.Points o.comp o.opt) (type : ConfType) (value : Option (TypedValue type)) :
    Ensures E (o.createArgument w type value memory) fun a =>
      w.Points a.comp a.opt ∧ w.Typed a.opt a.arg := by
  simp only [createArgument]
  split_ifs with hnull
  · exact sound_null
  · refine (ensures_alternateType hp).bind ?_
    intro alt halt
    split_ifs with h
    · exact sound_null
    · refine ⟨hp.lock, fun _ _ => ?_⟩
      show w.typeOf o.opt = .ok type
      rw [halt (by simpa using hnull), not_not.mp h]

/-- A list of values is typed where the function that makes it is used as its type says. -/
theorem ConfOption.sound_createListArgument {β : Type} {o : ConfOption} {memory : ℕ → Bool}
    (hp : w.Points o.comp o.opt) (type : ConfType) (values : List β)
    (value : β → Option (TypedValue type)) :
    let a := o.createListArgument w type (values.map value) memory
    w.Points a.comp a.opt ∧
      (((∃ i < values.length, memory i = true) → w.Usable o.opt → w.typeOf o.opt = .ok type) →
        w.Typed a.opt a.arg) := by
  refine ⟨hp.lock, fun huse hnodes husable => huse ?_ husable⟩
  simpa using makeArgumentList_ne_nil.mp hnodes

theorem ConfOption.sound_createNoneListArgument {o : ConfOption} {memory : ℕ → Bool}
    (hp : w.Points o.comp o.opt) (count : UInt32) :
    let a := o.createNoneListArgument w count memory
    w.Points a.comp a.opt ∧
      ((count ≠ 0 → memory 0 = true → w.Usable o.opt → w.typeOf o.opt = .ok .none) →
        w.Typed a.opt a.arg) := by
  simp only [createNoneListArgument]
  split_ifs with hcount
  · refine ⟨hp.lock, fun huse hnodes husable => huse hcount ?_ husable⟩
    by_contra hmem
    rw [Bool.not_eq_true] at hmem
    simp [owning, makeArgument, hmem, GpgmeConf.confArgNew_noMemory] at hnodes
  · exact sound_null.imp_right fun h _ => h

/-- The functions that make arguments do not fail. -/
theorem Factory.ensures_run {o : ConfOption} {memory : ℕ → Bool} (hp : w.Points o.comp o.opt)
    (factory : Factory) :
    Ensures E (factory.run w o memory) fun a =>
      w.Points a.comp a.opt ∧ (factory.TypedUse w o.opt memory → w.Typed a.opt a.arg) := by
  have hscalar : ∀ (type : ConfType) (value : Option (TypedValue type)),
      Ensures E (o.createArgument w type value memory) fun a =>
        w.Points a.comp a.opt ∧ (True → w.Typed a.opt a.arg) := fun type value =>
    (ConfOption.ensures_createArgument hp type value).mono fun _ h => h.imp_right fun h _ => h
  cases factory with
  | none set =>
      show Ensures E (o.createNoneArgument w set memory) _
      have hnone := (sound_null (w := w)).imp_right fun h (_ : True) => h
      by_cases hnull : o.isNull w = true
      · simp only [ConfOption.createNoneArgument, hnull, if_true]
        exact hnone
      · simp only [ConfOption.createNoneArgument, hnull]
        refine (ConfOption.ensures_alternateType hp).bind ?_
        intro alt halt
        split_ifs with h hset
        · exact hnone
        · refine (o.sound_createNoneListArgument hp 1).imp_right fun himp _ => himp ?_
          intro _ _ _
          rw [halt (by simpa using hnull), not_not.mp h]
        · exact hnone
  | string value => exact hscalar .string _
  | stdString value => exact hscalar .string _
  | int value => exact hscalar .int32 _
  | uint value => exact hscalar .uint32 _
  | noneList count => exact o.sound_createNoneListArgument hp count
  | stringList value => exact o.sound_createListArgument hp .string value _
  | stdStringList value => exact o.sound_createListArgument hp .string value _
  | intList values => exact o.sound_createListArgument hp .int32 values _
  | uintList values => exact o.sound_createListArgument hp .uint32 values _

end Making

/-! ## Destroying an argument -/

/-- The destructor needs the record, and nodes of its type. -/
theorem Argument.ensures_release {a : Argument} (hp : w.Points a.comp a.opt)
    (hfreed : w.Usable a.opt ∨ E .freedOption) (hmember : w.Typed a.opt a.arg ∨ E .wrongMember) :
    Ensures E (a.release w) fun _ => True := by
  refine (hp.ensures_typeOf hfreed).bind ?_
  intro type htype
  simp only [gpgmeConfArgRelease]
  split_ifs with h
  · trivial
  · refine hmember.resolve_left fun htyped => h ?_
    by_cases hnodes : a.arg.nodes = []
    · exact .inl hnodes
    · cases (htyped hnodes (World.usable_of_typeOf htype)).symm.trans htype
      exact .inr rfl

end Gpgmepp.Configuration
