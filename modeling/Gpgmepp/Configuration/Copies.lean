import Gpgmepp.Configuration.Invariants

/-!
# Copies of argument lists

A node that gpgme makes is zero if it has no argument, and has a string that is not null
if it has one and uses the string.  The nodes of all arguments that a program constructs are
made so, and a copy of such a list with its own type is the list itself, unless there is no
memory for it.

## Main definitions

* `Node.Made` — what `gpgme_conf_arg_new` makes.
* `confArgCopy_eq` — the copy of a list that was made so.
* `World.Made`, `ensures_keeps` — all arguments are made so, and only the three functions that
  change an option change a record.
-/

namespace Gpgmepp.Configuration

variable {type : ConfType}

/-- What gpgme makes: zero without an argument, and no null string with one. -/
def Node.Made (a : Node type) : Prop :=
  (a.noArg = true → a.value = .zero type.member) ∧ (a.value = .string none → a.noArg = true)

section Lists
variable [GpgmeConf]

theorem made_confArgNew {value : Option (TypedValue type)} {memory : Bool} {arg : Node type}
    (h : GpgmeConf.confArgNew type value memory = some arg)
    (hvalue : ∀ v, value = some v → v.value ≠ .string none) : arg.Made := by
  cases memory with
  | false => simp [GpgmeConf.confArgNew_noMemory] at h
  | true =>
      cases value with
      | none =>
          obtain rfl := Option.some.inj ((GpgmeConf.confArgNew_null type).symm.trans h)
          exact ⟨fun _ => rfl, fun _ => rfl⟩
      | some v =>
          obtain rfl := Option.some.inj ((GpgmeConf.confArgNew_value type v).symm.trans h)
          exact ⟨by simp, fun hv => absurd hv (hvalue v rfl)⟩

omit [GpgmeConf] in
/-- No null string is passed on with an argument. -/
theorem Node.ne_null_of_passed {s : ConfType} {a : Node s} {v : TypedValue type}
    (h : a.passed type = .ok (some v)) : v.value ≠ .string none := by
  simp only [Node.passed] at h
  split_ifs at h with hnoArg hstring hmember
  · cases h
  · split at h
    · cases h
    · obtain ⟨s, -, rfl⟩ := Option.map_eq_some_iff.mp (Except.ok.inj h)
      simp [TypedValue.chars]
  · obtain rfl := Option.some.inj (Except.ok.inj h)
    intro hv
    exact hmember.2 (hmember.1.symm.trans (congrArg Value.member hv))

/-- What a node passes on with its own type makes the node again. -/
theorem Node.confArgNew_passed {a : Node type} (ha : a.Made) {value : Option (TypedValue type)}
    (h : a.passed type = .ok value) : GpgmeConf.confArgNew type value true = some a := by
  obtain ⟨noArg, value', wf⟩ := a
  simp only [Node.passed] at h
  split_ifs at h with hnoArg hstring hmember
  · obtain rfl := Except.ok.inj h
    obtain rfl : value' = .zero type.member := ha.1 hnoArg
    rw [GpgmeConf.confArgNew_null]
    simpa using hnoArg.symm
  · have hnoArg' : noArg = false := by simpa using hnoArg
    subst hnoArg'
    cases value' with
    | string s =>
        cases s with
        | none => exact absurd (ha.2 rfl) hnoArg
        | some s =>
            simp only [Node.string, Node.read, Option.map_some] at h
            obtain rfl := Except.ok.inj h
            rw [GpgmeConf.confArgNew_value]
            rfl
    | _ => simp [Node.string, Node.read] at h
  · obtain rfl := Except.ok.inj h
    have hnoArg' : noArg = false := by simpa using hnoArg
    subst hnoArg'
    rw [GpgmeConf.confArgNew_value]

/-- A list whose nodes are all made by gpgme. -/
def Made (l : List (Node type)) : Prop := ∀ a ∈ l, a.Made

/-- The nodes of a copy are made by gpgme. -/
theorem made_confArgCopy {s : ConfType} {memory : ℕ → Bool} {other : List (Node s)}
    {l : List (Node type)} (h : mygpgmeConfArgCopy type memory other = .ok l) : Made l := by
  have hloop : ∀ result : List (Node type), Made result →
      mygpgmeConfArgCopyLoop type memory result other = .ok l → Made l := by
    clear h
    induction other with
    | nil =>
        intro result hresult h
        obtain rfl := Except.ok.inj h
        exact hresult
    | cons a as ih =>
        intro result hresult h
        simp only [mygpgmeConfArgCopyLoop] at h
        cases hpassed : a.passed type with
        | error f => simp [hpassed] at h
        | ok value =>
            cases harg : GpgmeConf.confArgNew type value (memory result.length) with
            | none =>
                simp only [hpassed, harg, Except.ok.injEq] at h
                simp [← h, Made]
            | some arg =>
                simp only [hpassed, harg] at h
                refine ih (result ++ [arg]) ?_ h
                have hmade : arg.Made := made_confArgNew harg fun v hv =>
                  Node.ne_null_of_passed (hv ▸ hpassed)
                simpa [Made, or_imp, forall_and] using ⟨hresult, hmade⟩
  exact hloop [] (by simp [Made]) h

/-- With memory, the loop copies a list that was made by gpgme, if its nodes can be passed on. -/
theorem confArgCopyLoop_eq {l : List (Node type)} {memory : ℕ → Bool} (hl : Made l)
    (hpassed : ∀ a ∈ l, ∃ value, a.passed type = .ok value) :
    ∀ {result : List (Node type)}, (∀ i < l.length, memory (result.length + i) = true) →
      mygpgmeConfArgCopyLoop type memory result l = .ok (result ++ l) := by
  induction l with
  | nil =>
      intro result _
      simp [mygpgmeConfArgCopyLoop]
  | cons a as ih =>
      intro result hmemory
      obtain ⟨ha, has⟩ := List.forall_mem_cons.mp hl
      obtain ⟨⟨value, hvalue⟩, hrest⟩ := List.forall_mem_cons.mp hpassed
      have h0 := hmemory 0 (by simp)
      rw [Nat.add_zero] at h0
      simp only [mygpgmeConfArgCopyLoop, hvalue, h0, Node.confArgNew_passed ha hvalue]
      rw [ih has hrest ?_]
      · simp
      · intro i hi
        have := hmemory (i + 1) (by simpa using hi)
        rw [← this, List.length_append, List.length_singleton]
        congr 1
        omega

/-- **The copy of a list that was made by gpgme** with its own type is the list, unless it is
null; and then every copy of the list is, if there is memory for it. -/
theorem confArgCopy_eq {l l' : List (Node type)} {memory : ℕ → Bool} (hl : Made l)
    (h : mygpgmeConfArgCopy type memory l = .ok l') (hne : l' ≠ []) :
    l' = l ∧ ∀ memory' : ℕ → Bool, (∀ i < l.length, memory' i = true) →
      mygpgmeConfArgCopy type memory' l = .ok l := by
  have hloop : ∀ result, mygpgmeConfArgCopyLoop type memory result l = .ok l' →
      l' = result ++ l ∧ ∀ a ∈ l, ∃ value, a.passed type = .ok value := by
    clear h
    induction l with
    | nil =>
        intro result h
        obtain rfl := Except.ok.inj h
        simp
    | cons a as ih =>
        intro result h
        obtain ⟨ha, has⟩ := List.forall_mem_cons.mp hl
        simp only [mygpgmeConfArgCopyLoop] at h
        cases hpassed : a.passed type with
        | error f => simp [hpassed] at h
        | ok value =>
            cases hmem : memory result.length with
            | false =>
                simp only [hpassed, hmem, GpgmeConf.confArgNew_noMemory, Except.ok.injEq] at h
                exact absurd h.symm hne
            | true =>
                simp only [hpassed, hmem, Node.confArgNew_passed ha hpassed] at h
                obtain ⟨rfl, hrest⟩ := ih has (result ++ [a]) h
                exact ⟨by simp, List.forall_mem_cons.mpr ⟨⟨value, hpassed⟩, hrest⟩⟩
  obtain ⟨hl', hpassed⟩ := hloop [] h
  exact ⟨hl', fun memory' hmem => confArgCopyLoop_eq hl hpassed (by simpa using hmem)⟩

theorem made_makeArgument {memory : Bool} {value : Option (TypedValue type)}
    (hvalue : ∀ v, value = some v → v.value ≠ .string none) :
    Made (makeArgument type memory value) := by
  intro a ha
  simp only [makeArgument, Option.mem_toList] at ha
  exact made_confArgNew ha hvalue

theorem made_makeArgumentList {memory : ℕ → Bool} {values : List (Option (TypedValue type))}
    (hvalues : ∀ value ∈ values, ∀ v, value = some v → v.value ≠ .string none) :
    Made (makeArgumentList type memory values) := by
  induction values generalizing memory with
  | nil => simp [makeArgumentList, Made]
  | cons value values ih =>
      obtain ⟨hvalue, hvalues⟩ := List.forall_mem_cons.mp hvalues
      intro a ha
      rcases List.mem_append.mp ha with ha | ha
      · exact made_makeArgument hvalue a ha
      · exact ih hvalues a ha

end Lists

/-! ## The arguments of a program -/

/-- The nodes of all arguments are made by gpgme. -/
def World.Made (w : World) : Prop :=
  ∀ x a, w.arguments x = some a → Configuration.Made a.arg.nodes

theorem World.Initial.made {w : World} (h : w.Initial) : w.Made := by
  intro x a hx
  simp [h.arguments x] at hx

theorem World.Made.setArgument {w : World} (h : w.Made) {x : ℕ} {b : Option Argument}
    (hb : ∀ a, b = some a → Configuration.Made a.arg.nodes) : (w.setArgument x b).Made := by
  intro x' a hx'
  simp only [World.setArgument, Function.update_apply] at hx'
  split_ifs at hx'
  · exact hb a hx'
  · exact h x' a hx'

/-- The option that an operation sets or resets. -/
def Op.changes : Op → Option ℕ
  | .setNewValue v _ _ => some v
  | .resetToDefaultValue v => some v
  | .resetToActiveValue v => some v
  | _ => none

theorem made_null : Made Argument.null.arg.nodes := by
  intro a ha
  cases ha

section Keeps
variable {w : World}

theorem options_setHandles (c n c' : ℕ) :
    ((w.setHandles c n).comps c').options = (w.comps c').options := by
  simp only [World.setHandles, Function.update_apply]
  split_ifs with h
  · rw [h]
  · rfl

theorem ensures_keeps_construct (hw : w.Made) (x : ℕ) {a : Argument} (ha : Made a.arg.nodes) :
    Ensures (fun _ => True) (w.construct x a) fun p =>
      p.2.Made ∧ ∀ c, (p.2.comps c).options = (w.comps c).options := by
  simp only [World.construct]
  split
  · trivial
  · exact ⟨hw.setArgument fun b hb => Option.some.inj hb ▸ ha, fun _ => rfl⟩

variable [GpgmeConf]

theorem ensures_made_copyOf (comp : Option ℕ) (opt : Option Ref) (arg : ArgList)
    (memory : ℕ → Bool) :
    Ensures (fun _ => True) (Argument.copyOf w comp opt arg memory) fun a =>
      Made a.arg.nodes := by
  refine Ensures.any.bind fun type _ => ?_
  exact Ensures.value.bind fun nodes hnodes => made_confArgCopy hnodes

theorem ensures_made_getter (o : ConfOption) (memory : ℕ → Bool) (getter : Getter) :
    Ensures (fun _ => True) (getter.run w o memory) fun a => Made a.arg.nodes := by
  have hrun : getter.run w o memory = o.valueOf w getter.select memory := by
    cases getter <;> rfl
  rw [hrun]
  refine Ensures.any.bind ?_
  rintro (_ | ⟨r, rec⟩) _
  · exact made_null
  · exact ensures_made_copyOf ..

theorem ensures_made_createArgument (o : ConfOption) {memory : ℕ → Bool}
    {value : Option (TypedValue type)} (hvalue : ∀ v, value = some v → v.value ≠ .string none) :
    Ensures (fun _ => True) (o.createArgument w type value memory) fun a => Made a.arg.nodes := by
  simp only [ConfOption.createArgument]
  split_ifs with hnull
  · exact made_null
  · refine Ensures.any.bind ?_
    intro alt _
    split_ifs
    · exact made_null
    · exact made_makeArgument hvalue

theorem made_createNoneListArgument (o : ConfOption) (count : UInt32) (memory : ℕ → Bool) :
    Made (o.createNoneListArgument w count memory).arg.nodes := by
  by_cases hcount : count ≠ 0
  · rw [ConfOption.createNoneListArgument, if_pos hcount]
    apply made_makeArgument
    rintro v ⟨⟩
    simp
  · rw [ConfOption.createNoneListArgument, if_neg hcount]
    exact made_null

theorem made_createListArgument {β : Type} (o : ConfOption) (memory : ℕ → Bool)
    (values : List β) {value : β → Option (TypedValue type)}
    (hvalue : ∀ b v, value b = some v → v.value ≠ .string none) :
    Made (o.createListArgument w type (values.map value) memory).arg.nodes := by
  apply made_makeArgumentList
  intro u hu
  obtain ⟨b, -, rfl⟩ := List.mem_map.mp hu
  exact hvalue b

omit [GpgmeConf] in
/-- What the functions that make arguments pass on is no null string. -/
theorem ne_null_ofChars (s : Option CString) (v : TypedValue .string)
    (h : ConfOption.ofChars s = some v) : v.value ≠ .string none := by
  obtain ⟨s, -, rfl⟩ := Option.map_eq_some_iff.mp h
  simp [TypedValue.chars]

theorem ensures_made_factory (o : ConfOption) (memory : ℕ → Bool) (factory : Factory) :
    Ensures (fun _ => True) (factory.run w o memory) fun a => Made a.arg.nodes := by
  cases factory with
  | none set =>
      show Ensures _ (o.createNoneArgument w set memory) _
      by_cases hnull : o.isNull w = true
      · simp only [ConfOption.createNoneArgument, hnull, if_true]
        exact made_null
      · simp only [ConfOption.createNoneArgument, hnull]
        refine Ensures.any.bind ?_
        intro alt _
        split_ifs
        · exact made_null
        · exact made_createNoneListArgument o 1 memory
        · exact made_null
  | string value => exact ensures_made_createArgument o (ne_null_ofChars _)
  | stdString value => exact ensures_made_createArgument o (ne_null_ofChars _)
  | int value => exact ensures_made_createArgument o (by rintro v ⟨⟩; simp)
  | uint value => exact ensures_made_createArgument o (by rintro v ⟨⟩; simp)
  | noneList count => exact made_createNoneListArgument o count memory
  | stringList value => exact made_createListArgument o memory value ne_null_ofChars
  | stdStringList value =>
      exact made_createListArgument o memory value fun s => ne_null_ofChars (some (.cStr s))
  | intList values => exact made_createListArgument o memory values (by rintro b v ⟨⟩; simp)
  | uintList values => exact made_createListArgument o memory values (by rintro b v ⟨⟩; simp)

variable [LibGpgError]

/-- **An operation that sets or resets no option** changes no option record, and makes the
arguments that it makes of nodes that are made by gpgme. -/
theorem ensures_keeps (hw : w.Made) {op : Op} (hop : op.changes = none) :
    Ensures (fun _ => True) (step w op) fun p =>
      p.2.Made ∧ ∀ c, (p.2.comps c).options = (w.comps c).options := by
  cases op with
  | hold c =>
      simp only [step]
      split_ifs
      · exact ⟨hw, options_setHandles c _⟩
      · trivial
  | drop c =>
      simp only [step]
      split_ifs
      · exact ⟨hw, options_setHandles c _⟩
      · trivial
  | option v c i =>
      simp only [step]
      split_ifs <;> first | exact ⟨hw, fun _ => rfl⟩ | trivial
  | assignOption v u => exact ⟨hw, fun _ => rfl⟩
  | optionParent v =>
      simp only [step]
      cases w.lock (w.options v).comp with
      | none => exact ⟨hw, fun _ => rfl⟩
      | some c => exact ⟨hw, options_setHandles c _⟩
  | parent v x => exact Ensures.any.bind fun _ _ => ⟨hw, fun _ => rfl⟩
  | property v property => exact Ensures.any.bind fun _ _ => ⟨hw, fun _ => rfl⟩
  | setNewValue v x memory => cases hop
  | resetToDefaultValue v => cases hop
  | resetToActiveValue v => cases hop
  | newArgument x => exact ensures_keeps_construct hw x made_null
  | get x v getter memory =>
      exact (ensures_made_getter _ memory getter).bind fun _ ha => ensures_keeps_construct hw x ha
  | create x v factory memory =>
      exact (ensures_made_factory _ memory factory).bind fun _ ha => ensures_keeps_construct hw x ha
  | copy x y memory =>
      refine Ensures.any.bind fun b _ => ?_
      exact (ensures_made_copyOf ..).bind fun _ ha => ensures_keeps_construct hw x ha
  | assign x y memory =>
      refine Ensures.any.bind fun a _ => Ensures.any.bind fun b _ => ?_
      split_ifs
      · exact ⟨hw, fun _ => rfl⟩
      · refine (ensures_made_copyOf ..).bind fun copy hcopy => Ensures.any.bind fun _ _ => ?_
        exact ⟨hw.setArgument fun b hb => Option.some.inj hb ▸ hcopy, fun _ => rfl⟩
  | swap x y =>
      refine (ensures_argument trivial x).bind fun a ha => ?_
      refine (ensures_argument trivial y).bind fun b hb => ?_
      refine ⟨(hw.setArgument ?_).setArgument ?_, fun _ => rfl⟩
      · exact fun b' hb' => Option.some.inj hb' ▸ hw y b hb
      · exact fun a' ha' => Option.some.inj ha' ▸ hw x a ha
  | destroy x =>
      refine Ensures.any.bind fun a _ => Ensures.any.bind fun _ _ => ?_
      exact ⟨hw.setArgument nofun, fun _ => rfl⟩
  | access x accessor =>
      exact Ensures.any.bind fun _ _ => Ensures.any.bind fun _ _ => ⟨hw, fun _ => rfl⟩

end Keeps

end Gpgmepp.Configuration
