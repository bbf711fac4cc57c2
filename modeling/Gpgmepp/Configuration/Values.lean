import Gpgmepp.Configuration.Copies
import Gpgmepp.Configuration.Lifetime

/-!
# The values of an option

`setNewValue`, `resetToDefaultValue` and `resetToActiveValue` change an option.  What
`currentValue`, `set` and `dirty` say of it afterwards depends on the last of these calls that
succeeded, whatever a program does in between.

## Main definitions

* `Change`, `changeOf`, `lastChange` — what a call asks for, and the last call that succeeded.
* `Changed` — the option record after a call.
* `ValueLaw`, `valueLaw` — the values of an option, after every run.
-/

namespace Gpgmepp.Configuration

open StateMachine

/-- A completed operation. -/
abbrev Called := Transition World Op Output

/-- What a call asks for: the value of an argument, the default value, or the active one. -/
inductive Change
  | value (arg : ArgList)
  | default
  | active

/-- What an operation asks for; a null argument stands for the default value. -/
def Op.change (w : World) : Op → Option Change
  | .setNewValue _ x _ =>
      (w.arguments x).map fun a => if a.isNull w then .default else .value a.arg
  | .resetToDefaultValue _ => some .default
  | .resetToActiveValue _ => some .active
  | _ => none

/-- The operation sets or resets the option `r`. -/
def Op.on (w : World) (r : Ref) (op : Op) : Bool :=
  op.changes.any fun v => (w.options v).opt = some r

/-- The operation returned no error. -/
def Output.succeeded : Output → Bool
  | .error e => e.mErr = 0
  | _ => false

/-- What a successful call asked for option `r`. -/
def changeOf (r : Ref) (t : Called) : Option Change :=
  if t.output.succeeded ∧ t.input.on t.source r then t.input.change t.source else none

/-- What the last successful call asked for option `r`. -/
def lastChange (r : Ref) (ts : List Called) : Option Change := (ts.filterMap (changeOf r)).getLast?

/-- The argument, if there is one, is of the given type. -/
def Change.OfType (type : ConfType) : Change → Prop
  | .value arg => arg.type = type
  | _ => True

theorem lastChange_concat (r : Ref) (ts : List Called) (t : Called) :
    lastChange r (ts ++ [t]) = (changeOf r t).or (lastChange r ts) := by
  cases h : changeOf r t <;> simp [lastChange, List.filterMap_append, h]

section Law
variable [GpgmeConf]

/-- A list can be copied if there is memory. -/
def Copyable {type : ConfType} (nodes : List (Node type)) : Prop :=
  ∀ memory : ℕ → Bool, (∀ i < nodes.length, memory i = true) →
    mygpgmeConfArgCopy type memory nodes = .ok nodes

/-- The option record before and after a change, or when nothing is changed. -/
inductive Changed (rec : OptRecord) : Option Change → OptRecord → Prop
  | unchanged : Changed rec none rec
  | value (nodes : List (Node rec.altType)) (hne : nodes ≠ []) (hcopy : Copyable nodes) :
      Changed rec (some (.value ⟨rec.altType, nodes⟩))
        { rec with changeValue := true, newValue := nodes }
  | default : Changed rec (some .default) { rec with changeValue := true, newValue := [] }
  | active : Changed rec (some .active) { rec with changeValue := false, newValue := [] }

theorem Changed.altType {rec rec' : OptRecord} {c : Option Change} (h : Changed rec c rec') :
    rec'.altType = rec.altType := by
  cases h <;> rfl

/-- A second change supersedes the first. -/
theorem Changed.trans {rec rec' rec'' : OptRecord} {c d : Option Change}
    (h : Changed rec c rec') (h' : Changed rec' d rec'') : Changed rec (d.or c) rec'' := by
  cases h' with
  | unchanged => exact h
  | value nodes hne hcopy => cases h <;> exact @Changed.value _ rec nodes hne hcopy
  | default => cases h <;> exact @Changed.default _ rec
  | active => cases h <;> exact @Changed.active _ rec

/-! ## What one operation does to a record -/

variable {w w' w₀ w₁ : World} {r : Ref} {rec : OptRecord} {o : ConfOption}

omit [GpgmeConf] in
theorem deref_eq_ok_iff :
    w.deref r = .ok rec ↔ w.Alive r.comp ∧ (w.comps r.comp).options[r.index]? = some rec := by
  simp only [World.deref]
  by_cases halive : w.Alive r.comp
  · cases h : (w.comps r.comp).options[r.index]? <;> simp [halive]
  · simp [halive]

omit [GpgmeConf] in
theorem alive_setRecord (r : Ref) (rec : OptRecord) (c : ℕ) :
    (w.setRecord r rec).Alive c ↔ w.Alive c := by
  simp only [World.Alive, World.setRecord, Function.update_apply]
  split_ifs with h
  · rw [h]
  · rfl

omit [GpgmeConf] in
/-- A changed record is read as it was written. -/
theorem deref_setRecord_self {rec' : OptRecord} (h : w.deref r = .ok rec) :
    (w.setRecord r rec').deref r = .ok rec' := by
  obtain ⟨halive, hget⟩ := deref_eq_ok_iff.mp h
  obtain ⟨hindex, -⟩ := List.getElem?_eq_some_iff.mp hget
  refine deref_eq_ok_iff.mpr ⟨(alive_setRecord ..).mpr halive, ?_⟩
  simp [World.setRecord, hindex]

omit [GpgmeConf] in
/-- The other records stay as they are. -/
theorem deref_setRecord_of_ne {r' : Ref} {rec' rec'' : OptRecord} (hne : r' ≠ r)
    (h : w.deref r' = .ok rec'') : (w.setRecord r rec').deref r' = .ok rec'' := by
  obtain ⟨halive, hget⟩ := deref_eq_ok_iff.mp h
  refine deref_eq_ok_iff.mpr ⟨(alive_setRecord ..).mpr halive, ?_⟩
  by_cases hc : r'.comp = r.comp
  · have hindex : r.index ≠ r'.index := by
      intro hi
      exact hne (by cases r; cases r'; simp_all)
    simp only [World.setRecord, hc, Function.update_self]
    rw [List.getElem?_set_ne hindex, ← hc]
    exact hget
  · simp [World.setRecord, hc, hget]

section Step

theorem change_eq (w : World) (r : Ref) (rec : OptRecord) (arg : List (Node rec.altType)) :
    ConfOption.change w r rec false arg =
        (.none, w.setRecord r { rec with changeValue := true, newValue := arg }) ∧
      ConfOption.change w r rec true arg =
        (.none, w.setRecord r { rec with changeValue := false, newValue := [] }) := by
  simp only [ConfOption.change, GpgmeConf.confOptChange_change, GpgmeConf.confOptChange_reset]
  exact ⟨rfl, rfl⟩

variable [LibGpgError]

/-- A call fails and changes nothing, or it does to the record what it asks for. -/
def Settles (w : World) (v : ℕ) (op : Op) (p : Output × World) : Prop :=
  (∃ e : Error, e.mErr ≠ 0 ∧ p = (.error e, w)) ∨
    ∃ r rec rec' c, (w.options v).record w = .ok (some (r, rec)) ∧ op.change w = some c ∧
      p = (.error .none, w.setRecord r rec') ∧ (c.OfType rec.altType → Changed rec (some c) rec')

theorem settles_resetToDefaultValue (v : ℕ) (op : Op) (hop : op.change w = some .default) :
    Ensures (fun _ => True) ((w.options v).resetToDefaultValue w) fun p =>
      Settles w v op (.error p.1, p.2) := by
  refine Ensures.value.bind ?_
  rintro (_ | ⟨r, rec⟩) hrecord
  · exact .inl ⟨_, Error.mErr_fromCode (by simp), rfl⟩
  · simp only [change_eq]
    exact .inr ⟨r, rec, _, .default, hrecord, hop, rfl, fun _ => .default⟩

theorem settles_resetToActiveValue (v : ℕ) :
    Ensures (fun _ => True) ((w.options v).resetToActiveValue w) fun p =>
      Settles w v (.resetToActiveValue v) (.error p.1, p.2) := by
  refine Ensures.value.bind ?_
  rintro (_ | ⟨r, rec⟩) hrecord
  · exact .inl ⟨_, Error.mErr_fromCode (by simp), rfl⟩
  · simp only [change_eq]
    exact .inr ⟨r, rec, _, .active, hrecord, rfl, rfl, fun _ => .active⟩

theorem settles_setNewValue (hw : w.Made) {v x : ℕ} {memory : ℕ → Bool} {a : Argument}
    (ha : w.arguments x = some a) :
    Ensures (fun _ => True) ((w.options v).setNewValue w a memory) fun p =>
      Settles w v (.setNewValue v x memory) (.error p.1, p.2) := by
  refine Ensures.value.bind ?_
  rintro (_ | ⟨r, rec⟩) hrecord
  · exact .inl ⟨_, Error.mErr_fromCode (by simp), rfl⟩
  · by_cases hnull : a.isNull w = true
    · simp only [hnull, if_true]
      exact settles_resetToDefaultValue v _ (by simp [Op.change, ha, hnull])
    · simp only [hnull]
      refine Ensures.value.bind ?_
      intro nodes hcopy
      by_cases hempty : nodes.isEmpty
      · simp only [hempty, if_true]
        exact .inl ⟨_, Error.mErr_fromCode (by simp), rfl⟩
      · simp only [hempty, change_eq]
        refine .inr ⟨r, rec, _, .value a.arg, hrecord, by simp [Op.change, ha, hnull], rfl, ?_⟩
        have hmade := hw x a ha
        generalize a.arg = arg at hmade hcopy ⊢
        obtain ⟨type, l⟩ := arg
        rintro rfl
        have hne : nodes ≠ [] := by simpa using hempty
        obtain ⟨rfl, hagain⟩ := confArgCopy_eq hmade hcopy hne
        exact .value nodes hne hagain

theorem settles_step (hw : w.Made) {op : Op} {v : ℕ} (hop : op.changes = some v) :
    Ensures (fun _ => True) (step w op) (Settles w v op) := by
  cases op with
  | setNewValue u x memory =>
      obtain rfl := Option.some.inj hop
      refine (ensures_argument trivial x).bind fun a ha => ?_
      exact (settles_setNewValue hw ha).bind fun _ h => h
  | resetToDefaultValue u =>
      obtain rfl := Option.some.inj hop
      exact (settles_resetToDefaultValue u _ rfl).bind fun _ h => h
  | resetToActiveValue u =>
      obtain rfl := Option.some.inj hop
      exact (settles_resetToActiveValue u).bind fun _ h => h
  | _ => cases hop

/-- Every operation makes the arguments that it makes of nodes that are made by gpgme. -/
theorem made_step (hw : w.Made) {op : Op} {out : Output} (hstep : step w op = .ok (out, w')) :
    w'.Made := by
  cases hop : op.changes with
  | none => exact ((ensures_keeps hw hop).of_ok hstep).1
  | some v =>
      rcases (settles_step hw hop).of_ok hstep with ⟨e, -, hp⟩ | ⟨r, rec, rec', c, -, -, hp, -⟩
      · exact (Prod.mk.inj hp).2 ▸ hw
      · exact (Prod.mk.inj hp).2 ▸ hw

/-- **One operation** leaves a record that is still held as it is, or does to it what the
operation asks for. -/
theorem changed_step (hw : w.Made) {op : Op} {out : Output} (hstep : step w op = .ok (out, w'))
    (hrec : w.deref r = .ok rec) (halive : w'.Alive r.comp)
    (htyped : ∀ c, changeOf r ⟨w, op, out, w'⟩ = some c → c.OfType rec.altType) :
    ∃ rec', w'.deref r = .ok rec' ∧ Changed rec (changeOf r ⟨w, op, out, w'⟩) rec' := by
  cases hop : op.changes with
  | none =>
      have hoptions := ((ensures_keeps hw hop).of_ok hstep).2 r.comp
      simp only at hoptions
      have hnone : changeOf r ⟨w, op, out, w'⟩ = none := by simp [changeOf, Op.on, hop]
      refine ⟨rec, deref_eq_ok_iff.mpr ⟨halive, ?_⟩, hnone ▸ .unchanged⟩
      rw [hoptions]
      exact (deref_eq_ok_iff.mp hrec).2
  | some v =>
      rcases (settles_step hw hop).of_ok hstep with
        ⟨e, he, hp⟩ | ⟨r', rec', rec'', c, hrecord, hchange, hp, hchanged⟩
      · obtain ⟨rfl, rfl⟩ := Prod.mk.inj hp
        have hnone : changeOf r ⟨w', op, .error e, w'⟩ = none := by
          simp [changeOf, Output.succeeded, he]
        exact ⟨rec, hrec, hnone ▸ .unchanged⟩
      · obtain ⟨rfl, rfl⟩ := Prod.mk.inj hp
        obtain ⟨hopt, hrec'⟩ := ConfOption.deref_of_record hrecord
        have hon : op.on w r = decide (r' = r) := by simp [Op.on, hop, hopt]
        by_cases hr : r' = r
        · subst hr
          obtain rfl := Except.ok.inj (hrec'.symm.trans hrec)
          have hsome : changeOf r' ⟨w, op, .error .none, w.setRecord r' rec''⟩ = some c := by
            simpa [changeOf, Output.succeeded, Error.none, hon] using hchange
          rw [hsome] at htyped ⊢
          exact ⟨rec'', deref_setRecord_self hrec, hchanged (htyped c rfl)⟩
        · have hnone : changeOf r ⟨w, op, .error .none, w.setRecord r' rec''⟩ = none := by
            simp [changeOf, hon, hr]
          exact ⟨rec, deref_setRecord_of_ne (Ne.symm hr) hrec, hnone ▸ .unchanged⟩

/-! ## Runs -/

theorem made_of_run {ts : List Called} (h0 : w₀.Initial) (hrun : Run step w₀ ts w) : w.Made :=
  hrun.invariant World.Made h0.made fun _ _ _ _ hu hstep => made_step hu hstep

/-- A component that is held now was held before. -/
theorem alive_of_run {ts : List Called} (hlinked : w₁.Linked) (hrun : Run step w₁ ts w) {c : ℕ}
    (halive : w.Alive c) : w₁.Alive c := by
  refine (hrun.invariant (fun u => u.Linked ∧ (u.Alive c → w₁.Alive c)) ⟨hlinked, id⟩ ?_).2 halive
  rintro u op out u' ⟨hu, hback⟩ hstep
  have heffect := (ensures_step hu op).of_ok hstep
  exact ⟨heffect.linked hu, fun h => hback ((heffect.later c).1 h)⟩

/-- **Every run** leaves a record that is still held as the last successful call left it. -/
theorem changed_run {ts : List Called} (hlinked : w₁.Linked) (hmade : w₁.Made)
    (hrun : Run step w₁ ts w) (hrec : w₁.deref r = .ok rec)
    (htyped : ∀ t ∈ ts, ∀ c, changeOf r t = some c → c.OfType rec.altType)
    (halive : w.Alive r.comp) :
    ∃ rec', w.deref r = .ok rec' ∧ Changed rec (lastChange r ts) rec' := by
  revert htyped halive
  refine (hrun.history (fun ts u => (u.Linked ∧ u.Made) ∧
    ((∀ t ∈ ts, ∀ c, changeOf r t = some c → c.OfType rec.altType) → u.Alive r.comp →
      ∃ rec', u.deref r = .ok rec' ∧ Changed rec (lastChange r ts) rec')) ?_ ?_).2
  · exact ⟨⟨hlinked, hmade⟩, fun _ _ => ⟨rec, hrec, .unchanged⟩⟩
  · rintro ts u op out u' - ⟨⟨hlinked, hmade⟩, ih⟩ hstep
    have heffect := (ensures_step hlinked op).of_ok hstep
    refine ⟨⟨heffect.linked hlinked, made_step hmade hstep⟩, ?_⟩
    intro htyped halive
    obtain ⟨rec', hrec', hchanged⟩ := ih (fun t ht => htyped t (by simp [ht]))
      ((heffect.later r.comp).1 halive)
    obtain ⟨rec'', hrec'', hchanged'⟩ := changed_step hmade hstep hrec' halive (by
      rw [hchanged.altType]
      exact htyped _ (by simp))
    rw [lastChange_concat]
    exact ⟨rec'', hrec'', hchanged.trans hchanged'⟩

/-- A call that fails changes nothing. -/
theorem failed_of_run {ts : List Called} (hmade : w₁.Made) (hrun : Run step w₁ ts w) :
    ∀ t ∈ ts, t.input.changes.isSome → t.output.succeeded = false → t.target = t.source := by
  refine hrun.forall_mem World.Made _ hmade (fun _ _ _ _ hu hstep => made_step hu hstep) ?_
  intro u op out u' hu hstep hchanges hfailed
  obtain ⟨v, hop⟩ := Option.isSome_iff_exists.mp hchanges
  rcases (settles_step hu hop).of_ok hstep with ⟨e, -, hp⟩ | ⟨r, rec, rec', c, -, -, hp, -⟩
  · exact (Prod.mk.inj hp).2
  · obtain ⟨rfl, -⟩ := Prod.mk.inj hp
    simp [Output.succeeded, Error.none] at hfailed

end Step

/-! ## What the member functions say -/

omit [GpgmeConf] in
/-- An option that is not null has a record that is held. -/
theorem record_eq (hopt : o.opt = some r)
    (hnull : o.isNull w = false) (hrec : w.deref r = .ok rec) :
    o.record w = .ok (some (r, rec)) := by
  simp [ConfOption.record, hnull, hopt, hrec, Except.map]

/-- The member functions for values copy what they select. -/
theorem valueOf_eq (hrecord : o.record w = .ok (some (r, rec)))
    (select : (rec : OptRecord) → List (Node rec.altType)) (memory : ℕ → Bool) :
    o.valueOf w select memory =
      (mygpgmeConfArgCopy rec.altType memory (select rec)).map fun nodes =>
        ⟨w.lock o.comp, o.opt, ⟨rec.altType, nodes⟩⟩ := by
  simp only [ConfOption.valueOf, hrecord, Argument.copyOf, ConfOption.typeOf_of_record hrecord]
  show (mygpgmeConfArgCopy rec.altType memory (select rec)).bind _ = _
  cases mygpgmeConfArgCopy rec.altType memory (select rec) <;> rfl

/-- Two selections of the same value are copied to the same argument. -/
theorem valueOf_congr {select select' : (rec : OptRecord) → List (Node rec.altType)}
    (hrecord : o.record w = .ok (some (r, rec))) (h : select rec = select' rec)
    (memory : ℕ → Bool) : o.valueOf w select memory = o.valueOf w select' memory := by
  rw [valueOf_eq hrecord, valueOf_eq hrecord, h]

/-- `currentValue` is the active value, or the default value if there is none. -/
def CurrentIsActive (w : World) (o : ConfOption) (rec : OptRecord) : Prop :=
  ∀ memory, o.currentValue w memory =
    if rec.value = [] then o.defaultValue w memory else o.activeValue w memory

/-- What should be seen of option `o`, whose record is `r` and was `rec` in `w₁`, after the
operations `ts` from there to `w`. -/
structure ValueLaw (r : Ref) (w₁ : World) (rec : OptRecord) (ts : List Called) (w : World)
    (o : ConfOption) : Prop where
  /-- `activeValue` and `defaultValue` do not change. -/
  active : ∀ memory, o.activeValue w memory = o.activeValue w₁ memory
  default : ∀ memory, o.defaultValue w memory = o.defaultValue w₁ memory
  /-- A call that fails changes nothing. -/
  failed : ∀ t ∈ ts, t.input.changes.isSome → t.output.succeeded = false → t.target = t.source
  /-- `currentValue` is what the last successful call asked for. -/
  current :
    match lastChange r ts with
    | some (.value arg) => ∀ memory : ℕ → Bool, (∀ i < arg.nodes.length, memory i = true) →
        ∃ a, o.currentValue w memory = .ok a ∧ a.arg = arg
    | some .default => ∀ memory, o.currentValue w memory = o.defaultValue w memory
    | some .active => CurrentIsActive w o rec
    | none => rec.changeValue = false → CurrentIsActive w o rec
  /-- From an unmodified option on, `dirty` says whether the last successful call left a
  change. -/
  dirty : ∃ d, o.dirty w = .ok d ∧ (rec.changeValue = false →
    (d = true ↔ ∃ c, lastChange r ts = some c ∧ c ≠ .active))
  /-- An option that is not set has its default value. -/
  set : ∃ b, o.set w = .ok b ∧
    (b = false → ∀ memory, o.currentValue w memory = o.defaultValue w memory)

/-- An option that is not modified has its active value. -/
theorem currentIsActive_of (hrecord : o.record w = .ok (some (r, rec)))
    (hchange : rec.changeValue = false) : CurrentIsActive w o rec := by
  intro memory
  by_cases hvalue : rec.value = []
  · rw [if_pos hvalue]
    exact valueOf_congr hrecord (by simp [ConfOption.current, hchange, hvalue]) memory
  · rw [if_neg hvalue]
    exact valueOf_congr hrecord (by simp [ConfOption.current, hchange, hvalue]) memory

/-- What an option record says of a value that was set. -/
theorem current_of_copyable (hrecord : o.record w = .ok (some (r, rec)))
    (hchange : rec.changeValue = true) (hne : rec.newValue ≠ []) (hcopy : Copyable rec.newValue)
    {memory : ℕ → Bool} (hmemory : ∀ i < rec.newValue.length, memory i = true) :
    ∃ a, o.currentValue w memory = .ok a ∧ a.arg = ⟨rec.altType, rec.newValue⟩ := by
  have hcurrent : ConfOption.current rec = rec.newValue := by
    simp [ConfOption.current, hchange, hne]
  refine ⟨⟨w.lock o.comp, o.opt, ⟨rec.altType, rec.newValue⟩⟩, ?_, rfl⟩
  rw [ConfOption.currentValue, valueOf_eq hrecord, hcurrent, hcopy memory hmemory]
  rfl

/-- The two values that no call changes, before and after. -/
theorem values_eq {rec' : OptRecord} {c : Option Change} (hchanged : Changed rec c rec')
    (hrecord₁ : o.record w₁ = .ok (some (r, rec))) (hrecord : o.record w = .ok (some (r, rec')))
    (hlock : w.lock o.comp = w₁.lock o.comp) (memory : ℕ → Bool) :
    o.activeValue w memory = o.activeValue w₁ memory ∧
      o.defaultValue w memory = o.defaultValue w₁ memory := by
  simp only [ConfOption.activeValue, ConfOption.defaultValue, valueOf_eq hrecord,
    valueOf_eq hrecord₁, hlock]
  cases hchanged <;> exact ⟨rfl, rfl⟩

/-- What `set` says of a record, and what follows if it is false. -/
theorem set_spec (hrecord : o.record w = .ok (some (r, rec))) :
    ∃ b, o.set w = .ok b ∧
      (b = false → ∀ memory, o.currentValue w memory = o.defaultValue w memory) := by
  refine ⟨_, by simp only [ConfOption.set, ConfOption.field, hrecord]; rfl, ?_⟩
  intro hset memory
  refine valueOf_congr hrecord ?_ memory
  cases hchange : rec.changeValue with
  | true =>
      have hnil : rec.newValue = [] := by simpa [hchange] using hset
      simp [ConfOption.current, hchange, hnil]
  | false =>
      have hnil : rec.value = [] := by simpa [hchange] using hset
      simp [ConfOption.current, hchange, hnil]

omit [GpgmeConf] in
theorem dirty_eq (hrecord : o.record w = .ok (some (r, rec))) :
    o.dirty w = .ok rec.changeValue := by
  simp only [ConfOption.dirty, ConfOption.field, hrecord]
  rfl

/-- **The law of the values of an option**, over every run from every world that programs
reach, for arguments of the type of the option. -/
theorem valueLaw [LibGpgError] {pre ts : List Called} {v : ℕ} (h0 : w₀.Initial)
    (hpre : Run step w₀ pre w₁) (hrun : Run step w₁ ts w) (hrec : w₁.deref r = .ok rec)
    (htyped : ∀ t ∈ ts, ∀ c, changeOf r t = some c → c.OfType rec.altType)
    (hopt : (w.options v).opt = some r) (hlive : (w.options v).isNull w = false) :
    ValueLaw r w₁ rec ts w (w.options v) := by
  have hlinked₁ := linked_of_run h0 hpre
  have hlinked := linked_of_run h0 (hpre.append hrun)
  obtain ⟨hindex, hlock⟩ := hlinked.options v r hopt
  have hexpired : w.expired (w.options v).comp = false := by
    have := hlive
    simp only [ConfOption.isNull, Bool.or_eq_false_iff] at this
    exact this.1
  have halive : w.Alive r.comp := (hlinked.options v).usable hexpired r hopt
  have halive₁ : w₁.Alive r.comp := alive_of_run hlinked₁ hrun halive
  have hcomp : (w.options v).comp = some r.comp := by
    rw [World.lock, if_pos halive] at hlock
    exact (World.lock_eq_some.mp hlock).1
  have hlock₁ : w.lock (w.options v).comp = w₁.lock (w.options v).comp := by
    simp [hcomp, World.lock, halive, halive₁]
  have hrecord₁ : (w.options v).record w₁ = .ok (some (r, rec)) :=
    record_eq hopt (by simp [ConfOption.isNull, World.expired, hcomp, World.lock, halive₁, hopt])
      hrec
  obtain ⟨rec', hrec', hchanged⟩ := changed_run hlinked₁ (made_of_run h0 hpre) hrun hrec htyped
    halive
  have hrecord := record_eq hopt hlive hrec'
  exact {
    active := fun memory => (values_eq hchanged hrecord₁ hrecord hlock₁ memory).1
    default := fun memory => (values_eq hchanged hrecord₁ hrecord hlock₁ memory).2
    failed := failed_of_run (made_of_run h0 hpre) hrun
    current := by
      generalize lastChange r ts = c at hchanged
      cases hchanged with
      | unchanged => exact currentIsActive_of hrecord
      | value nodes hne hcopy => exact fun memory => current_of_copyable hrecord rfl hne hcopy
      | default => exact fun memory => valueOf_congr hrecord (by simp [ConfOption.current]) memory
      | active =>
          have hactive := currentIsActive_of hrecord rfl
          exact hactive
    dirty := by
      refine ⟨_, dirty_eq hrecord, ?_⟩
      intro hclean
      generalize lastChange r ts = c at hchanged
      cases hchanged <;> simp [hclean]
    set := set_spec hrecord }

end Law

/-- A number is set, and then set again when there is no memory. -/
theorem valueLaw_noMemory :
    letI := GpgmeConf.documented
    letI := LibGpgError.documented
    ∃ rec ts w, World.obtained.deref ⟨0, 0⟩ = .ok rec ∧
      ts.map Transition.input =
        [.setNewValue 0 0 fun _ => true, .setNewValue 0 0 fun _ => false] ∧
      lastChange ⟨0, 0⟩ ts = some (.value ⟨.int32, [⟨false, .int32 1, rfl⟩]⟩) ∧
      ValueLaw ⟨0, 0⟩ .obtained rec ts w (w.options 0) := by
  let := GpgmeConf.documented
  let := LibGpgError.documented
  obtain ⟨pre, hpre⟩ := run_obtained
  let number : OptRecord :=
    { name := none, flags := 0, level := .basic, description := none, type := .int32,
      altType := .int32, argname := none, defaultValue := [], defaultDescription := none,
      noArgValue := [], noArgDescription := none, value := [⟨false, .int32 1, rfl⟩],
      changeValue := false, newValue := [] }
  let w := World.obtained.setRecord ⟨0, 0⟩
    { number with changeValue := true, newValue := [⟨false, .int32 1, rfl⟩] }
  let t : Called := ⟨.obtained, .setNewValue 0 0 fun _ => true, .error .none, w⟩
  let t' : Called := ⟨w, .setNewValue 0 0 fun _ => false, .error (.fromCode .enomem), w⟩
  have hrun : Run step .obtained [t, t'] w := .cons rfl (.cons rfl (.nil _))
  have hset : changeOf ⟨0, 0⟩ t = some (.value ⟨.int32, [⟨false, .int32 1, rfl⟩]⟩) := rfl
  have hfailed : changeOf ⟨0, 0⟩ t' = none := by
    simp [t', changeOf, Output.succeeded, Error.mErr_fromCode]
  refine ⟨number, [t, t'], w, rfl, rfl, by simp [lastChange, hset, hfailed],
    valueLaw (World.ofOption_initial _ _) hpre hrun rfl ?_ rfl rfl⟩
  intro u hu c hc
  rcases List.mem_pair.mp hu with rfl | rfl
  · obtain rfl := Option.some.inj (hset.symm.trans hc)
    rfl
  · cases hfailed.symm.trans hc

end Gpgmepp.Configuration
