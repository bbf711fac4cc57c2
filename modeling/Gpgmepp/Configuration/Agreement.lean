import Gpgmepp.Configuration.Memory

/-!
# Member functions with memory

The member functions that have lists in memory do what those do that have them as values.  They
return the same, or fail alike; and what they make in memory is the list that they should make, and
nothing else (`alike_getter`, `alike_factory`, `alike_copyOf`, `alike_release`, `alike_accessor`).

## Main definitions

* `Obtains`, `MadeAt` — a list, or an argument, is all that is left of what was made.
* `ReadsAt`, `Describes` — the pointer of an argument, or of a record, points to its list.
-/

namespace Gpgmepp.Configuration

open LinkedList

variable {h h' : NodeHeap} {type : ConfType} {memory : ℕ → Bool} {w : World} {o : ConfOption}

/-! ## Without lists -/

section Bare

@[simp] theorem lock_bare (w : World) : w.bare.lock = w.lock := by
  funext comp
  cases comp <;> rfl

@[simp] theorem expired_bare (w : World) (comp : Option ℕ) :
    w.bare.expired comp = w.expired comp := by
  rw [World.expired, World.expired, lock_bare]

theorem deref_bare (w : World) (r : Ref) : w.bare.deref r = (w.deref r).map OptRecord.bare := by
  have halive : w.bare.Alive r.comp ↔ w.Alive r.comp := .rfl
  have hget : (w.bare.comps r.comp).options[r.index]? =
      (w.comps r.comp).options[r.index]?.map OptRecord.bare := List.getElem?_map
  simp only [World.deref, halive, hget]
  split
  · cases (w.comps r.comp).options[r.index]? <;> rfl
  · rfl

@[simp] theorem typeOf_bare (w : World) (opt : Option Ref) : w.bare.typeOf opt = w.typeOf opt := by
  cases opt with
  | none => rfl
  | some r =>
      rw [World.typeOf, World.typeOf, deref_bare]
      cases w.deref r <;> rfl

@[simp] theorem isNull_bare (w : World) (o : ConfOption) : o.isNull w.bare = o.isNull w := by
  rw [ConfOption.isNull, ConfOption.isNull, expired_bare]

/-- The guard of the member functions. -/
theorem alike_record (w : World) (o : ConfOption) :
    EndsAlike (fun p q => o.record w = .ok p ∧ q = p.map (Prod.map id OptRecord.bare)) (o.record w)
      (o.record w.bare) := by
  simp only [ConfOption.record, isNull_bare]
  split
  · exact .ok ⟨rfl, rfl⟩
  split
  · exact .ok ⟨rfl, rfl⟩
  next r _ =>
    rw [deref_bare]
    cases w.deref r with
    | error f => exact .error f
    | ok rec => exact .ok ⟨rfl, rfl⟩

/-- What a record says apart from its lists. -/
theorem alike_field {α : Type} (default : α) {select : OptRecord → α}
    (hselect : ∀ rec, select rec.bare = select rec) :
    EndsAlike Eq (o.field w default select) (o.field w.bare default select) := by
  refine (alike_record w o).bind ?_
  rintro p q ⟨-, rfl⟩
  cases p with
  | none => exact .ok rfl
  | some p => exact .ok (hselect p.2).symm

theorem alike_alternateType (w : World) (o : ConfOption) :
    EndsAlike Eq (o.alternateType w) (o.alternateType w.bare) :=
  alike_field _ fun _ => rfl

theorem bare_setOption (w : World) (v : ℕ) (o : ConfOption) :
    (w.bare.setOption v o).bare = (w.setOption v o).bare := by
  simp only [World.bare, World.setOption, List.map_map]
  rfl

theorem bare_setHandles (w : World) (c n : ℕ) :
    (w.bare.setHandles c n).bare = (w.setHandles c n).bare := by
  simp only [World.bare, World.setHandles, World.mk.injEq, and_true]
  funext c'
  by_cases hc : c' = c
  · subst hc
    simp only [Function.update_self, List.map_map]
    rfl
  · simp only [Function.update_of_ne hc, List.map_map]
    rfl

/-- The records after one of them was changed. -/
theorem bare_setRecord (w : World) (r : Ref) {rec rec' : OptRecord} (h : rec'.bare = rec.bare) :
    (w.bare.setRecord r rec').bare = (w.setRecord r rec).bare := by
  obtain ⟨c, i⟩ := r
  simp only [World.bare, World.setRecord, World.mk.injEq, and_true]
  funext c'
  by_cases hc : c' = c
  · subst hc
    simp only [Function.update_self, List.map_set, List.map_map, h]
    rfl
  · simp only [Function.update_of_ne hc, List.map_map]
    rfl

end Bare

/-! ## What is made -/

/-- At `q` there is the list, and nothing else is left of what was made since `h₀`; and no address
is used again. -/
structure Obtains {type : ConfType} (h₀ h : NodeHeap) (q : Option ℕ) (nodes : List (Node type)) :
    Prop where
  makes : Makes h₀ h q nodes
  fresh_le : h₀.fresh ≤ h.fresh

theorem obtains_nil (type : ConfType) (h : NodeHeap) : Obtains h h none ([] : List (Node type)) :=
  ⟨makes_nil h, Nat.le_refl _⟩

section Loops
variable [GpgmeConf]

theorem fresh_le_confArgNewAt (h : NodeHeap) (type : ConfType) (value : Option (TypedValue type))
    (memory : Bool) : h.fresh ≤ (confArgNewAt h type value memory).2.fresh := by
  rw [confArgNewAt]
  split
  · exact Nat.le_refl _
  · rw [Heap.fresh_alloc]
    omega

omit [GpgmeConf] in
theorem fresh_of_append {result last q : Option ℕ} {arg : ℕ}
    (happend : append h result last arg = some (q, h')) : h'.fresh = h.fresh := by
  cases result with
  | none =>
      obtain ⟨-, rfl⟩ := Prod.mk.inj (Option.some.inj happend)
      rfl
  | some result =>
      obtain ⟨g, hnext, heq⟩ := Option.map_eq_some_iff.mp happend
      obtain ⟨-, rfl⟩ := Prod.mk.inj heq
      obtain ⟨last, -, hnext⟩ := Option.bind_eq_some_iff.mp hnext
      exact Heap.fresh_of_setNext hnext

omit [GpgmeConf] in
theorem fresh_of_appendLast {result last q : Option ℕ} {arg : ℕ}
    (happend : appendLast h result last arg = some (q, h')) : h'.fresh = h.fresh := by
  cases last with
  | none =>
      obtain ⟨-, rfl⟩ := Prod.mk.inj (Option.some.inj happend)
      rfl
  | some last =>
      obtain ⟨g, hnext, heq⟩ := Option.map_eq_some_iff.mp happend
      obtain ⟨-, rfl⟩ := Prod.mk.inj heq
      exact Heap.fresh_of_setNext hnext

/-- The loop that copies a list uses no address again. -/
theorem fresh_le_copyLoop {fuel : ℕ} : ∀ {h : NodeHeap} {calls : ℕ} {result last a q : Option ℕ},
    copyLoop type memory fuel h calls result last a = .ok (q, h') → h.fresh ≤ h'.fresh := by
  induction fuel with
  | zero =>
      intro h calls result last a q hloop
      cases a with
      | none =>
          obtain ⟨-, rfl⟩ := Prod.mk.inj (Except.ok.inj hloop)
          exact Nat.le_refl _
      | some a => cases hloop
  | succ fuel ih =>
      intro h calls result last a q hloop
      cases a with
      | none =>
          obtain ⟨-, rfl⟩ := Prod.mk.inj (Except.ok.inj hloop)
          exact Nat.le_refl _
      | some a =>
          rw [copyLoop] at hloop
          split at hloop
          · cases hloop
          split at hloop
          · cases hloop
          next value hpassed =>
          have hle := fresh_le_confArgNewAt h type value (memory calls)
          split at hloop
          · next g hnew =>
              rw [hnew] at hle
              split at hloop
              · cases hloop
              · next g' hrelease =>
                  obtain ⟨-, rfl⟩ := Prod.mk.inj (Except.ok.inj hloop)
                  rw [Heap.fresh_of_release hrelease]
                  exact hle
          · next arg g hnew =>
              rw [hnew] at hle
              split at hloop
              · cases hloop
              next result' g' happend =>
              split at hloop
              · cases hloop
              · have hrest := ih hloop
                rw [fresh_of_append happend] at hrest
                exact Nat.le_trans hle hrest

/-- Nor does the loop that makes a list of values. -/
theorem fresh_le_makeArgumentLoop {values : List (Option (TypedValue type))} :
    ∀ {h : NodeHeap} {calls : ℕ} {result last q : Option ℕ},
      makeArgumentLoop type memory h calls result last values = some (q, h') →
        h.fresh ≤ h'.fresh := by
  induction values with
  | nil =>
      intro h calls result last q hloop
      obtain ⟨-, rfl⟩ := Prod.mk.inj (Option.some.inj hloop)
      exact Nat.le_refl _
  | cons value values ih =>
      intro h calls result last q hloop
      have hle := fresh_le_confArgNewAt h type value (memory calls)
      rw [makeArgumentLoop] at hloop
      split at hloop
      · next g hnew =>
          rw [hnew] at hle
          exact Nat.le_trans hle (ih hloop)
      · next arg g hnew =>
          rw [hnew] at hle
          split at hloop
          · cases hloop
          · next result' g' happend =>
              have hrest := ih hloop
              rw [fresh_of_appendLast happend] at hrest
              exact Nat.le_trans hle hrest

/-- The loop that copies a list stops where the copy does. -/
theorem copyLoop_error {h₀ : NodeHeap} {s : ConfType} {rest : List (Node s)} {f : ConfFault} :
    ∀ {fuel : ℕ} {h : NodeHeap} {result last a : Option ℕ} {as : List ℕ} {done : List (Node type)},
      as.length ≤ fuel → IsList h₀ a as (contents rest) → Built h₀ h result last (contents done) →
      mygpgmeConfArgCopyLoop type memory done rest = .error f →
      copyLoop type memory fuel h done.length result last a = .error f := by
  induction rest with
  | nil =>
      intro fuel h result last a as done _ _ _ hnodes
      cases hnodes
  | cons n rest ih =>
      intro fuel h result last a as done hfuel hlist hb hnodes
      obtain ⟨a, next, as, rfl, rfl, hcell, hrest⟩ := hlist.exists_of_cons
      obtain ⟨fuel, rfl⟩ : ∃ k, fuel = k + 1 := Nat.exists_eq_succ_of_ne_zero (by
        rw [List.length_cons] at hfuel
        omega)
      have hcell' : h.cells a = some ⟨⟨s, n⟩, next⟩ :=
        (hb.frame a (Heap.lt_fresh hcell)).trans hcell
      simp only [mygpgmeConfArgCopyLoop] at hnodes
      simp only [copyLoop, hcell', confArgNewAt]
      cases hpassed : n.passed type with
      | error f =>
          rw [hpassed] at hnodes
          exact congrArg _ (Except.error.inj hnodes)
      | ok value =>
          simp only [hpassed] at hnodes ⊢
          cases hnew : GpgmeConf.confArgNew type value (memory done.length) with
          | none =>
              simp only [hnew] at hnodes
              cases hnodes
          | some arg =>
              simp only [hnew] at hnodes ⊢
              obtain ⟨result', h', happend, -, hb'⟩ := append_eq hb arg
              have hcell'' : h'.cells a = some ⟨⟨s, n⟩, next⟩ :=
                (hb'.frame a (Heap.lt_fresh hcell)).trans hcell
              have hlength : done.length + 1 = (done ++ [arg]).length := by simp
              simp only [happend, hcell'', hlength]
              exact ih (by simpa using hfuel) hrest hb' hnodes

/-- **A list is copied.** -/
theorem alike_copyAt {s : ConfType} {other : List (Node s)} {p : Option ℕ} {as : List ℕ}
    (hlist : IsList h p as (contents other)) :
    EndsAlike (fun nodes q => Obtains h q.2 q.1 nodes) (mygpgmeConfArgCopy type memory other)
      (copyAt type memory h p) := by
  cases hnodes : mygpgmeConfArgCopy type memory other with
  | ok nodes =>
      obtain ⟨q, h', hcopy, hmakes⟩ := copyAt_spec hlist hnodes
      rw [hcopy]
      exact .ok ⟨hmakes, fresh_le_copyLoop hcopy⟩
  | error f =>
      have hb : Built h h none none (contents ([] : List (Node type))) := .refl h
      have hcopy : copyAt type memory h p = .error f :=
        copyLoop_error hlist.length_le_fresh hlist hb hnodes
      rw [hcopy]
      exact .error f

/-- **One node is made**, if there is memory. -/
theorem obtains_confArgNewAt (h : NodeHeap) (type : ConfType) (value : Option (TypedValue type))
    (memory : Bool) :
    Obtains h (confArgNewAt h type value memory).2 (confArgNewAt h type value memory).1
      (makeArgument type memory value) := by
  refine ⟨?_, fresh_le_confArgNewAt h type value memory⟩
  rw [confArgNewAt, makeArgument]
  cases hnew : GpgmeConf.confArgNew type value memory with
  | none => exact makes_nil h
  | some arg =>
      have hfirst : Built h _ _ _ (contents [arg]) := (Built.refl h).first ⟨type, arg⟩
      exact makes_of_built hfirst

/-- **A list is made of values.** -/
theorem exists_makeArgumentAt (type : ConfType) (values : List (Option (TypedValue type)))
    (memory : ℕ → Bool) (h : NodeHeap) :
    ∃ q h', makeArgumentAt type memory h values = some (q, h') ∧
      Obtains h h' q (makeArgumentList type memory values) := by
  obtain ⟨q, h', hmake, hmakes⟩ := makeArgumentAt_spec type memory h values
  exact ⟨q, h', hmake, hmakes, fresh_le_makeArgumentLoop hmake⟩

end Loops

/-! ## Releasing -/

/-- A list is released with a type that uses the member of its nodes. -/
theorem confArgReleaseAt_eq {l : List ((type : ConfType) × Node type)} {p : Option ℕ}
    {as : List ℕ} (hp : IsList h p as l) (hl : ∀ n ∈ l, n.1.member = type.member) :
    confArgReleaseAt type h p = .ok (h.eraseAll as) := by
  have hloop : ∀ fuel, as.length ≤ fuel →
      confArgReleaseLoop type fuel h p = .ok (h.eraseAll as) := by
    induction as generalizing h p l with
    | nil =>
        intro fuel _
        cases hp
        cases fuel <;> rfl
    | cons a as ih =>
        intro fuel hfuel
        cases hp with
        | @cons _ c _ l hc hrest =>
            have hnodup := (IsList.cons hc hrest).nodup
            cases fuel with
            | zero => simp at hfuel
            | succ fuel =>
                simp only [confArgReleaseLoop, hc, hl _ List.mem_cons_self, if_true]
                refine ih (hrest.congr fun b hb => ?_)
                  (fun n hn => hl n (List.mem_cons_of_mem _ hn)) fuel (by simpa using hfuel)
                have hne : b ≠ a := fun heq => (List.nodup_cons.mp hnodup).1 (heq ▸ hb)
                exact Function.update_of_ne hne ..
  exact hloop _ hp.length_le_fresh

/-- **A list is released**, or the type is wrong. -/
theorem alike_confArgRelease {s : ConfType} {nodes : List (Node s)} {p : Option ℕ} {as : List ℕ}
    (hlist : IsList h p as (contents nodes)) :
    EndsAlike (fun _ h' => h.release p = some h') (gpgmeConfArgRelease type nodes)
      (confArgReleaseAt type h p) := by
  rw [gpgmeConfArgRelease]
  split
  · next hright =>
      rw [confArgReleaseAt_eq hlist fun n hn => ?_]
      · exact .ok hlist.release_eq
      · obtain ⟨node, hnode, rfl⟩ := List.mem_map.mp hn
        rcases hright with rfl | hmember
        · cases hnode
        · exact hmember
  · next hwrong =>
      cases nodes with
      | nil => simp at hwrong
      | cons n ns =>
          obtain ⟨a, next, as', rfl, rfl, hcell, -⟩ := hlist.exists_of_cons
          obtain ⟨fuel, hfuel⟩ : ∃ k, h.fresh = k + 1 :=
            Nat.exists_eq_succ_of_ne_zero (by have := Heap.lt_fresh hcell; omega)
          have hmember : s.member ≠ type.member := fun heq => hwrong (.inr heq)
          have hrelease : confArgReleaseAt type h (some a) = .error .wrongMember := by
            simp only [confArgReleaseAt, hfuel, confArgReleaseLoop, hcell, hmember, if_false]
          rw [hrelease]
          exact .error _

/-! ## Arguments -/

/-- The argument `a'` has in memory what `a` has as a value. -/
structure ReadsAt (h : NodeHeap) (a : Argument) (a' : ArgumentAt) : Prop where
  comp : a'.comp = a.comp
  opt : a'.opt = a.opt
  list : ∃ as, IsList h a'.arg as (contents a.arg.nodes)

/-- An argument is not touched by what makes a list. -/
theorem ReadsAt.settled {a : Argument} {a' : ArgumentAt} (hr : ReadsAt h a a') {kept : List ℕ}
    (hs : Settled h h' kept) : ReadsAt h' a a' := by
  obtain ⟨as, hlist⟩ := hr.list
  exact ⟨hr.comp, hr.opt, as, hlist.congr fun n hn => hs.frame n (hlist.lt_fresh n hn)⟩

theorem contents_eq_nil {nodes : List (Node type)} : contents nodes = [] ↔ nodes = [] := by
  simp [contents]

section Accessors
variable {a : Argument} {a' : ArgumentAt}

theorem ReadsAt.isNull (hr : ReadsAt h a a') (w : World) : a'.isNull w.bare = a.isNull w := by
  obtain ⟨as, hlist⟩ := hr.list
  have hnil : a'.arg.isNone = a.arg.nodes.isEmpty := by
    rw [Bool.eq_iff_iff, Option.isNone_iff_eq_none, List.isEmpty_iff, hlist.eq_nil_iff,
      contents_eq_nil]
  rw [ArgumentAt.isNull, Argument.isNull, expired_bare, hr.comp, hr.opt, hnil]

/-- An argument is destroyed. -/
theorem alike_release (hr : ReadsAt h a a') :
    EndsAlike (fun _ h' => h.release a'.arg = some h') (a.release w) (a'.release w.bare h) := by
  obtain ⟨as, hlist⟩ := hr.list
  rw [Argument.release, ArgumentAt.release, typeOf_bare, hr.opt]
  refine (EndsAlike.value _).bind ?_
  rintro type _ ⟨rfl, -⟩
  exact alike_confArgRelease hlist

/-- The guard of the accessors. -/
theorem alike_guarded (hr : ReadsAt h a a') (type : ConfType) :
    EndsAlike (fun nodes p => ∃ as, IsList h p as (contents nodes)) (a.guarded w type)
      (a'.guarded w.bare type) := by
  have hempty : ∃ as, IsList h none as (contents ([] : List (Node a.arg.type))) := ⟨[], .nil⟩
  rw [Argument.guarded, ArgumentAt.guarded, hr.isNull w, typeOf_bare, hr.opt]
  split
  · exact .ok hempty
  refine (EndsAlike.value _).bind ?_
  rintro alt _ ⟨rfl, -⟩
  by_cases halt : alt = type
  · rw [if_pos halt, if_pos halt]
    exact .ok hr.list
  · rw [if_neg halt, if_neg halt]
    exact .ok hempty

/-- The node with a number. -/
theorem nodeAt_eq {l : List ((type : ConfType) × Node type)} {p : Option ℕ} {as : List ℕ}
    (hlist : IsList h p as l) (idx : ℕ) : nodeAt h p idx = .ok l[idx]? := by
  obtain ⟨q, bs, hadvance, hrest⟩ := hlist.exists_advance idx
  have hhead : l[idx]? = (l.drop idx).head? := (List.head?_drop ..).symm
  rw [nodeAt, hadvance, hhead]
  cases hrest' : l.drop idx with
  | nil =>
      obtain rfl := hrest.eq_nil_iff.mpr hrest'
      rfl
  | cons n ns =>
      rw [hrest'] at hrest
      obtain ⟨b, next, bs', rfl, -, hcell, -⟩ := hrest.exists_of_cons
      simp only [hcell, List.head?_cons]

/-- The accessors that return the value of one node. -/
theorem alike_value (hr : ReadsAt h a a') (type : ConfType) (idx : ℕ) {α : Type} (default : α)
    (read : {type : ConfType} → Node type → Except ConfFault α) :
    EndsAlike Eq
      (do match (← a.guarded w type)[idx]? with
          | none => return default
          | some n => read n)
      (do match ← nodeAt h (← a'.guarded w.bare type) idx with
          | none => return default
          | some n => read n.2) := by
  refine (alike_guarded hr type).bind ?_
  rintro nodes p ⟨as, hlist⟩
  rw [nodeAt_eq hlist, contents, List.getElem?_map]
  cases nodes[idx]? with
  | none => exact .ok rfl
  | some n => exact (EndsAlike.value _).imp fun _ _ hv => hv.1

/-- The accessors that return all values. -/
theorem alike_values (hr : ReadsAt h a a') (type : ConfType) {α : Type}
    (read : {type : ConfType} → Node type → Except ConfFault α) :
    EndsAlike Eq (do (← a.guarded w type).mapM read)
      (do valuesAt h (← a'.guarded w.bare type) fun n => read n.2) := by
  refine (alike_guarded hr type).bind ?_
  rintro nodes p ⟨as, hlist⟩
  have hvalues : valuesAt h p (fun n => read n.2) = nodes.mapM read := by
    rw [valuesAt, hlist.forEach_eq, contents, List.foldlM_map]
    exact (Except.foldlM_append read nodes []).trans (by cases nodes.mapM read <;> rfl)
  rw [hvalues]
  exact (EndsAlike.value _).imp fun _ _ hv => hv.1

/-- The loop that counts. -/
theorem foldlM_count {α : Type} (l : List α) : ∀ n : UInt32,
    l.foldlM (fun result _ => (.ok (result + 1) : Except ConfFault UInt32)) n =
      .ok (n + UInt32.ofNat l.length) := by
  induction l with
  | nil => intro n; simp [pure, Except.pure]
  | cons x l ih =>
      intro n
      have hlength : n + 1 + UInt32.ofNat l.length = n + UInt32.ofNat (x :: l).length := by
        rw [List.length_cons, UInt32.ofNat_add, UInt32.add_assoc, UInt32.add_comm 1]
        rfl
      rw [List.foldlM_cons, ← hlength]
      exact ih (n + 1)

/-- The accessor that counts. -/
theorem alike_numElements (hr : ReadsAt h a a') :
    EndsAlike Eq (.ok (a.numElements w)) (a'.numElements w.bare h) := by
  rw [Argument.numElements, ArgumentAt.numElements, hr.isNull w]
  split
  · exact .ok rfl
  obtain ⟨as, hlist⟩ := hr.list
  rw [hlist.forEach_eq, foldlM_count, UInt32.zero_add, contents, List.length_map]
  exact .ok rfl

/-- **The accessors** read from the nodes what is in the list. -/
theorem alike_accessor (hr : ReadsAt h a a') (accessor : Accessor) :
    EndsAlike Eq (accessor.run w a) (accessor.runAt w.bare h a') := by
  have hbind : ∀ {α : Type} {x y : Except ConfFault α} (f : α → Output), EndsAlike Eq x y →
      EndsAlike Eq (do return f (← x)) (do return f (← y)) := by
    intro α x y f hxy
    refine hxy.bind ?_
    rintro v _ rfl
    exact .ok rfl
  have htimes := alike_value (w := w) hr .none 0 0 Node.count
  cases accessor with
  | numElements => exact hbind _ (alike_numElements hr)
  | numberOfTimesSet => exact hbind _ htimes
  | boolValue =>
      refine hbind _ (htimes.bind ?_)
      rintro n _ rfl
      exact .ok rfl
  | stringValue idx => exact hbind _ (alike_value hr .string idx.toNat none Node.string)
  | intValue idx => exact hbind _ (alike_value hr .int32 idx.toNat 0 Node.int32)
  | uintValue idx => exact hbind _ (alike_value hr .uint32 idx.toNat 0 Node.uint32)
  | stringValues => exact hbind _ (alike_values hr .string Node.string)
  | intValues => exact hbind _ (alike_values hr .int32 Node.int32)
  | uintValues => exact hbind _ (alike_values hr .uint32 Node.uint32)

end Accessors

/-! ## Options -/

/-- The pointers of a record point to its lists. -/
def Describes (h : NodeHeap) (conf : Field → Option ℕ) (rec : OptRecord) : Prop :=
  ∀ f : Field, ∃ as, IsList h (conf f) as (contents (f.select rec))

/-- A pointer of a record is null if the list is empty. -/
theorem Describes.isSome {conf : Field → Option ℕ} {rec : OptRecord} (hconf : Describes h conf rec)
    (f : Field) : (conf f).isSome = !(f.select rec).isEmpty := by
  obtain ⟨as, hlist⟩ := hconf f
  rw [Bool.eq_iff_iff, Option.isSome_iff_ne_none, Bool.not_eq_true', List.isEmpty_eq_false_iff,
    ne_eq, hlist.eq_nil_iff, contents_eq_nil]

/-- The pointer that a getter selects points to what the getter selects. -/
theorem Describes.getter {conf : Field → Option ℕ} {rec : OptRecord} (hconf : Describes h conf rec)
    (getter : Getter) :
    ∃ as, IsList h (getter.pointer rec.bare conf) as (contents (getter.select rec)) := by
  have hor : ∀ (f : Field), ∃ as, IsList h ((conf f).or (conf .defaultValue)) as
      (contents (if (f.select rec).isEmpty then rec.defaultValue else f.select rec)) := by
    intro f
    obtain ⟨as, hlist⟩ := hconf f
    cases hnodes : f.select rec with
    | nil =>
        obtain ⟨bs, hdefault⟩ := hconf .defaultValue
        have hnone := hlist.eq_nil_iff.mpr (contents_eq_nil.mpr hnodes)
        rw [hnone]
        exact ⟨bs, hdefault⟩
    | cons n ns =>
        obtain ⟨a, ha⟩ := Option.ne_none_iff_exists'.mp
          (mt hlist.eq_nil_iff.mp (by simp [contents, hnodes]))
        rw [ha, hnodes] at hlist
        rw [ha]
        exact ⟨as, hlist⟩
  have hchange : rec.bare.changeValue = rec.changeValue := rfl
  cases getter with
  | defaultValue => exact hconf .defaultValue
  | noArgumentValue => exact hconf .noArgValue
  | activeValue => exact hconf .value
  | newValue => exact hconf .newValue
  | currentValue =>
      rw [Getter.pointer, Getter.select, ConfOption.current, hchange]
      cases rec.changeValue with
      | true => exact hor .newValue
      | false => exact hor .value

/-- **The member functions that return what an option is like.** -/
theorem alike_property (m : Memory)
    (hconf : ∀ r rec, w.deref r = .ok rec → Describes m.heap (m.conf r) rec)
    (property : Property) :
    EndsAlike Eq (property.run w o) (property.runAt w.bare m o) := by
  have hfield : ∀ {α : Type} (default : α) {select : OptRecord → α} (f : α → Output),
      (∀ rec, select rec.bare = select rec) →
      EndsAlike Eq (do return f (← o.field w default select))
        (do return f (← o.field w.bare default select)) := by
    intro α default select f hselect
    refine (alike_field default hselect).bind ?_
    rintro v _ rfl
    exact .ok rfl
  cases property with
  | set =>
      simp only [Property.run, ConfOption.set, ConfOption.field, Property.runAt, bind_assoc]
      refine (alike_record w o).bind ?_
      rintro p q ⟨hrecord, rfl⟩
      cases p with
      | none => exact .ok rfl
      | some p =>
          obtain ⟨r, rec⟩ := p
          have hpointer := (hconf r rec (ConfOption.deref_of_record hrecord).2).isSome
          have hchange : rec.bare.changeValue = rec.changeValue := rfl
          refine .ok ?_
          simp only [id, hchange, hpointer]
          cases rec.changeValue <;> rfl
  | _ => exact hfield _ _ fun _ => rfl

/-! ## What an argument gets -/

/-- The argument that was made in memory is `a`, and its list is all that was made. -/
structure MadeAt (h : NodeHeap) (a : Argument) (made : ArgumentAt × NodeHeap) : Prop where
  comp : made.1.comp = a.comp
  opt : made.1.opt = a.opt
  obtains : Obtains h made.2 made.1.arg a.arg.nodes

theorem madeAt_null (h : NodeHeap) : MadeAt h .null (.null, h) :=
  ⟨rfl, rfl, obtains_nil _ _⟩

/-- An argument that owns a list that was just made. -/
theorem madeAt_owning {arg : ArgList} {made : Option ℕ × NodeHeap}
    (hmade : Obtains h made.2 made.1 arg.nodes) :
    MadeAt h (o.owning w arg) (o.owningAt w.bare made) :=
  ⟨by rw [ConfOption.owningAt, lock_bare]; rfl, rfl, hmade⟩

section Functions
variable [GpgmeConf]

/-- **The constructor that copies a list.** -/
theorem alike_copyOf (comp : Option ℕ) (opt : Option Ref) {arg : ArgList} {p : Option ℕ}
    {as : List ℕ} (hlist : IsList h p as (contents arg.nodes)) :
    EndsAlike (MadeAt h) (Argument.copyOf w comp opt arg memory)
      (ArgumentAt.copyOf w.bare comp opt p memory h) := by
  rw [Argument.copyOf, ArgumentAt.copyOf, typeOf_bare]
  refine (EndsAlike.value _).bind ?_
  rintro type _ ⟨rfl, -⟩
  refine (alike_copyAt hlist).bind ?_
  rintro nodes ⟨q, h'⟩ hobtains
  exact .ok ⟨rfl, rfl, hobtains⟩

/-- The copy constructor. -/
theorem alike_copy {a : Argument} {a' : ArgumentAt} (hr : ReadsAt h a a') :
    EndsAlike (MadeAt h) (a.copy w memory) (a'.copy w.bare memory h) := by
  obtain ⟨as, hlist⟩ := hr.list
  rw [Argument.copy, ArgumentAt.copy, hr.comp, hr.opt]
  exact alike_copyOf _ _ hlist

/-- **The getters.** -/
theorem alike_getter (m : Memory)
    (hconf : ∀ r rec, w.deref r = .ok rec → Describes m.heap (m.conf r) rec) (getter : Getter) :
    EndsAlike (MadeAt m.heap) (getter.run w o memory) (getter.runAt w.bare o memory m) := by
  have hvalueOf : EndsAlike (MadeAt m.heap) (o.valueOf w getter.select memory)
      (getter.runAt w.bare o memory m) := by
    refine (alike_record w o).bind ?_
    rintro p q ⟨hrecord, rfl⟩
    cases p with
    | none => exact .ok (madeAt_null m.heap)
    | some p =>
        obtain ⟨r, rec⟩ := p
        obtain ⟨as, hlist⟩ := (hconf r rec (ConfOption.deref_of_record hrecord).2).getter getter
        have hcontents : IsList m.heap _ as
            (contents (⟨rec.altType, getter.select rec⟩ : ArgList).nodes) := hlist
        simp only [Option.map_some, Prod.map_apply, id, lock_bare]
        exact alike_copyOf _ _ hcontents
  cases getter with
  | _ => exact hvalueOf

/-- The functions that make an argument with one value. -/
theorem alike_createArgument (h : NodeHeap) (value : Option (TypedValue type)) :
    EndsAlike (MadeAt h) (o.createArgument w type value memory)
      (createArgumentAt w.bare o type value memory h) := by
  rw [ConfOption.createArgument, createArgumentAt, isNull_bare]
  split
  · exact .ok (madeAt_null h)
  refine (alike_alternateType w o).bind ?_
  rintro alt _ rfl
  split
  · exact .ok (madeAt_null h)
  · exact .ok (madeAt_owning (obtains_confArgNewAt h type value (memory 0)))

/-- The function that makes a count. -/
theorem madeAt_createNoneListArgument (h : NodeHeap) (count : UInt32) :
    MadeAt h (o.createNoneListArgument w count memory)
      (createNoneListArgumentAt w.bare o count memory h) := by
  rw [ConfOption.createNoneListArgument, createNoneListArgumentAt]
  split
  · exact madeAt_owning (obtains_confArgNewAt h .none _ (memory 0))
  · exact madeAt_null h

/-- The function that makes a count or nothing. -/
theorem alike_createNoneArgument (h : NodeHeap) (set : Bool) :
    EndsAlike (MadeAt h) (o.createNoneArgument w set memory)
      (createNoneArgumentAt w.bare o set memory h) := by
  rw [ConfOption.createNoneArgument, createNoneArgumentAt, isNull_bare]
  split
  · exact .ok (madeAt_null h)
  refine (alike_alternateType w o).bind ?_
  rintro alt _ rfl
  split
  · exact .ok (madeAt_null h)
  cases set with
  | true => exact .ok (madeAt_createNoneListArgument h 1)
  | false => exact .ok (madeAt_null h)

/-- The functions that make an argument with a list of values. -/
theorem alike_createListArgument (h : NodeHeap) (values : List (Option (TypedValue type))) :
    EndsAlike (MadeAt h) (.ok (o.createListArgument w type values memory))
      (createListArgumentAt w.bare o type values memory h) := by
  obtain ⟨q, h', hmake, hobtains⟩ := exists_makeArgumentAt type values memory h
  rw [createListArgumentAt, hmake]
  exact .ok (madeAt_owning hobtains)

/-- **The functions that make arguments.** -/
theorem alike_factory (h : NodeHeap) (factory : Factory) :
    EndsAlike (MadeAt h) (factory.run w o memory) (factory.runAt w.bare o memory h) := by
  cases factory with
  | none set => exact alike_createNoneArgument h set
  | string value => exact alike_createArgument h _
  | stdString value => exact alike_createArgument h _
  | int value => exact alike_createArgument h _
  | uint value => exact alike_createArgument h _
  | noneList count => exact .ok (madeAt_createNoneListArgument h count)
  | stringList value => exact alike_createListArgument h _
  | stdStringList value => exact alike_createListArgument h _
  | intList values => exact alike_createListArgument h _
  | uintList values => exact alike_createListArgument h _

end Functions

end Gpgmepp.Configuration
